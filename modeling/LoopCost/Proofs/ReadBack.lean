import LoopCost.Number.Count
import Mathlib

/-! Reading displayed counts. Each of the three notations is read as an exact fraction, and each tells how far the count may
be from it. What is displayed is read back as the digits it was made of. -/

namespace LoopCost

/-- What a displayed count stands for, and how far off it may be. -/
structure Readback where
  value : ℚ
  slack : ℚ
deriving DecidableEq

namespace Readback

def digits? (text : List Char) : Option ℕ :=
  if text ≠ [] ∧ text.all Char.isDigit = true then some (Nat.ofDigitChars 10 text 0) else none

def decimal? (text : List Char) : Option ℚ :=
  match text.dropWhile (· != '.') with
  | [] => (digits? text).map fun n => (n : ℚ)
  | _ :: places => do
    let whole ← digits? (text.takeWhile (· != '.'))
    let part ← digits? places
    return whole + part / 10 ^ places.length

def integer? : List Char → Option ℤ
  | '-' :: size => (digits? size).map fun n => -n
  | size => (digits? size).map fun n => (n : ℤ)

/-- Takes out the commas, one in front of every three digits, of a text that is read from the right. -/
def ungrouped? : List Char → Option (List Char)
  | a :: b :: c :: ',' :: rest => (ungrouped? rest).map (a :: b :: c :: ·)
  | few => if few ≠ [] ∧ few.length ≤ 3 then some few else none

def grouped? (text : List Char) : Option ℕ := (ungrouped? text.reverse).bind fun digits => digits? digits.reverse

/-- A decimal fraction times a power of ten, an integer in groups, or a decimal fraction. It may be off by half a unit of
its last place: of a tenth of the power, of one, or of a hundredth. -/
def size? (text : List Char) : Option Readback :=
  match text.dropWhile (· != 'x') with
  | 'x' :: '1' :: '0' :: '^' :: power => do
    let mantissa ← decimal? (text.takeWhile (· != 'x'))
    let power ← integer? power
    return { value := mantissa * 10 ^ power, slack := 10 ^ power / 20 }
  | _ :: _ => none
  | [] =>
    if ',' ∈ text then (grouped? text).map fun n : ℕ => ⟨n, 1 / 2⟩ else (decimal? text).map fun value => ⟨value, 1 / 200⟩

def ofText? : List Char → Option Readback
  | '-' :: size => (size? size).map fun reading => { reading with value := -reading.value }
  | size => size? size

theorem digits?_eq_some {text : List Char} {n : ℕ} (read : digits? text = some n) :
    text ≠ [] ∧ (∀ c ∈ text, c.isDigit = true) ∧ Nat.ofDigitChars 10 text 0 = n := by
  unfold digits? at read
  split at read
  · next row =>
    cases read
    exact ⟨row.1, List.all_eq_true.mp row.2, rfl⟩
  · cases read

theorem digits?_of {text : List Char} (nonempty : text ≠ []) (row : ∀ c ∈ text, c.isDigit = true) :
    digits? text = some (Nat.ofDigitChars 10 text 0) := if_pos ⟨nonempty, List.all_eq_true.mpr row⟩

/-- A number is read back from its digits. -/
theorem digits?_toDigits (n : ℕ) : digits? (Nat.toDigits 10 n) = some n := by
  rw [digits?_of Nat.toDigits_ne_nil fun c => Nat.isDigit_of_mem_toDigits (by decide) (by decide),
    Nat.ofDigitChars_ten_toDigits]

theorem digits?_append {front back : List Char} {n m : ℕ} (read : digits? front = some n) (read' : digits? back = some m) :
    digits? (front ++ back) = some (n * 10 ^ back.length + m) := by
  obtain ⟨nonempty, row, value⟩ := digits?_eq_some read
  obtain ⟨-, row', value'⟩ := digits?_eq_some read'
  rw [digits?_of (List.append_ne_nil_of_left_ne_nil nonempty back), Nat.ofDigitChars_append, value,
    Nat.ofDigitChars_eq_ofDigitChars_zero, value', Nat.mul_comm]
  intro c member
  exact (List.mem_append.mp member).elim (row c) (row' c)

theorem not_mem_of_digits? {text : List Char} {n : ℕ} (read : digits? text = some n) {c : Char} (other : c.isDigit = false) :
    c ∉ text := by
  intro member
  have digit := (digits?_eq_some read).2.1 c member
  rw [other] at digit
  cases digit

section
variable {front : List Char} {sign : Char} (free : sign ∉ front)

include free

theorem all_ne_sign : ∀ c ∈ front, (c != sign) = true := by
  intro c member
  rw [bne_iff_ne]
  rintro rfl
  exact free member

theorem takeWhile_sign (back : List Char) : (front ++ sign :: back).takeWhile (· != sign) = front := by
  rw [List.takeWhile_append_of_pos (all_ne_sign free)]
  simp

theorem dropWhile_sign (back : List Char) : (front ++ sign :: back).dropWhile (· != sign) = sign :: back := by
  rw [List.dropWhile_append_of_pos (all_ne_sign free)]
  simp

theorem dropWhile_free : front.dropWhile (· != sign) = [] := List.dropWhile_eq_nil_iff.mpr (all_ne_sign free)

end

theorem decimal?_digits {text : List Char} {n : ℕ} (read : digits? text = some n) : decimal? text = some (n : ℚ) := by
  rw [decimal?, dropWhile_free (not_mem_of_digits? read (by decide)), read]
  rfl

theorem decimal?_point {whole places : List Char} {n m : ℕ} (read : digits? whole = some n) (read' : digits? places = some m) :
    decimal? (whole ++ '.' :: places) = some (n + m / 10 ^ places.length : ℚ) := by
  have free := not_mem_of_digits? read (c := '.') (by decide)
  rw [decimal?, dropWhile_sign free, takeWhile_sign free, read]
  simp [read']

theorem integer?_toString (n : ℤ) : integer? (toString n).toList = some n := by
  cases n with
  | ofNat n =>
    have text : (toString (Int.ofNat n)).toList = Nat.toDigits 10 n := String.toList_ofList
    have read := digits?_toDigits n
    rw [text]
    unfold integer?
    split
    · next size same =>
      rw [same] at read
      exact absurd List.mem_cons_self (not_mem_of_digits? read (by decide))
    · rw [read]
      rfl
  | negSucc n =>
    have text : (toString (Int.negSucc n)).toList = '-' :: Nat.toDigits 10 (n + 1) := by
      change ("-" ++ toString (n + 1)).toList = _
      simp
    rw [text, integer?, digits?_toDigits]
    rfl

/-- Taking the commas out undoes putting them in. -/
theorem ungrouped?_commaEachThird {digits : List Char} (nonempty : digits ≠ []) (free : ',' ∉ digits) :
    ungrouped? (commaEachThird digits) = some digits := by
  fun_induction commaEachThird digits with
  | case1 a b c next rest ih =>
    have later := ih (List.cons_ne_nil next rest) fun member => free (by simp [List.mem_cons.mp member])
    rw [ungrouped?, later]
    rfl
  | case2 few short =>
    unfold ungrouped?
    split
    · next a b c rest => exact absurd (by simp) free
    · apply if_pos
      refine ⟨nonempty, ?_⟩
      by_contra! long
      match few, long with
      | a :: b :: c :: next :: rest, _ => exact short a b c next rest rfl

theorem grouped?_grouped {digits : List Char} {n : ℕ} (read : digits? digits = some n) :
    grouped? (grouped digits) = some n := by
  have free := not_mem_of_digits? read (c := ',') (by decide)
  have nonempty := List.reverse_ne_nil_iff.mpr (digits?_eq_some read).1
  have ungrouped := ungrouped?_commaEachThird nonempty (free ∘ List.mem_reverse.mp)
  rw [grouped?, grouped, List.reverse_reverse, ungrouped, Option.bind_some, List.reverse_reverse, read]

theorem size?_scientific {mantissa power : List Char} {value : ℚ} {order : ℤ} (read : decimal? mantissa = some value)
    (free : 'x' ∉ mantissa) (read' : integer? power = some order) :
    size? (mantissa ++ 'x' :: '1' :: '0' :: '^' :: power) = some ⟨value * 10 ^ order, 10 ^ order / 20⟩ := by
  rw [size?, dropWhile_sign free, takeWhile_sign free]
  simp [read, read']

theorem mem_commaEachThird {c : Char} {digits : List Char} (member : c ∈ commaEachThird digits) : c ∈ digits ∨ c = ',' := by
  fun_induction commaEachThird digits with
  | case1 a b d next rest ih =>
    simp only [List.mem_cons] at member ih ⊢
    tauto
  | case2 few short => exact .inl member

theorem comma_mem {digits : List Char} (long : 4 ≤ digits.length) : ',' ∈ commaEachThird digits := by
  match digits, long with
  | a :: b :: c :: next :: rest, _ => simp [commaEachThird]

theorem not_mem_grouped {digits : List Char} {n : ℕ} (read : digits? digits = some n) {c : Char} (other : c.isDigit = false)
    (comma : c ≠ ',') : c ∉ grouped digits := by
  intro member
  rcases mem_commaEachThird (List.mem_reverse.mp member) with digit | same
  · exact not_mem_of_digits? read other (List.mem_reverse.mp digit)
  · exact comma same

theorem size?_grouped {digits : List Char} {n : ℕ} (read : digits? digits = some n) (long : 4 ≤ digits.length) :
    size? (grouped digits) = some ⟨n, 1 / 2⟩ := by
  have free := not_mem_grouped read (c := 'x') (by decide) (by decide)
  have comma : ',' ∈ grouped digits := List.mem_reverse.mpr (comma_mem (by simpa using long))
  rw [size?, dropWhile_free free]
  simp only [if_pos comma, grouped?_grouped read, Option.map_some]

theorem size?_decimal {text : List Char} {value : ℚ} (read : decimal? text = some value) (free : 'x' ∉ text)
    (free' : ',' ∉ text) : size? text = some ⟨value, 1 / 200⟩ := by
  rw [size?, dropWhile_free free]
  simp only [if_neg free', read, Option.map_some]

theorem not_mem_point {whole places : List Char} {n m : ℕ} (read : digits? whole = some n) (read' : digits? places = some m)
    {c : Char} (other : c.isDigit = false) (point : c ≠ '.') : c ∉ whole ++ '.' :: places := by
  rw [List.mem_append, List.mem_cons, not_or, not_or]
  exact ⟨not_mem_of_digits? read other, point, not_mem_of_digits? read' other⟩

theorem size?_point {whole places : List Char} {n m : ℕ} (read : digits? whole = some n) (read' : digits? places = some m) :
    size? (whole ++ '.' :: places) = some ⟨n + m / 10 ^ places.length, 1 / 200⟩ :=
  size?_decimal (decimal?_point read read') (not_mem_point read read' (by decide) (by decide))
    (not_mem_point read read' (by decide) (by decide))

theorem size?_digits {text : List Char} {n : ℕ} (read : digits? text = some n) : size? text = some ⟨n, 1 / 200⟩ :=
  size?_decimal (decimal?_digits read) (not_mem_of_digits? read (by decide)) (not_mem_of_digits? read (by decide))

theorem length_toDigits_of_lt {n : ℕ} (small : n < 10) : (Nat.toDigits 10 n).length = 1 := by
  rw [Nat.toDigits_of_lt_base small]
  rfl

theorem hundredths_eq (hundredths : ℕ) : (hundredths : ℚ) / 100 =
    (hundredths / 100 : ℕ) + ((hundredths / 10 % 10 : ℕ) * 10 + (hundredths % 10 : ℕ)) / 100 := by
  have parts : hundredths = hundredths / 100 * 100 + hundredths / 10 % 10 * 10 + hundredths % 10 := by omega
  have sum : (hundredths : ℚ) = (hundredths / 100 : ℕ) * 100 + (hundredths / 10 % 10 : ℕ) * 10 + (hundredths % 10 : ℕ) := by
    exact_mod_cast parts
  rw [sum]
  ring

theorem size?_plainText (hundredths : ℕ) : size? (plainText hundredths) = some ⟨hundredths / 100, 1 / 200⟩ := by
  have tenths := length_toDigits_of_lt (Nat.mod_lt (hundredths / 10) (by decide : 0 < 10))
  have last := length_toDigits_of_lt (Nat.mod_lt hundredths (by decide : 0 < 10))
  rw [hundredths_eq]
  unfold plainText
  dsimp only
  split
  · have places := digits?_append (digits?_toDigits (hundredths / 10 % 10)) (digits?_toDigits (hundredths % 10))
    rw [List.append_assoc, List.cons_append, size?_point (digits?_toDigits _) places, List.length_append, tenths, last]
    norm_num
  split
  · next none some =>
    rw [size?_point (digits?_toDigits _) (digits?_toDigits _), tenths, not_not.mp none]
    norm_num
    ring
  · next none none' =>
    rw [size?_digits (digits?_toDigits _), not_not.mp none, not_not.mp none']
    norm_num

/-- The first digits of a number are its quotient. -/
theorem toDigits_of_two {n : ℕ} (low : 10 ≤ n) (high : n < 100) :
    Nat.toDigits 10 n = Nat.toDigits 10 (n / 10) ++ Nat.toDigits 10 (n % 10) := by
  rw [Nat.toDigits_append_toDigits (by decide) (by omega) (by omega), Nat.div_add_mod]

/-- The first digit of a number of two digits, the point and the second digit; or the same for a hundred. -/
theorem mantissa_eq {n : ℕ} (low : 10 ≤ n) (high : n ≤ 100) :
    ∃ first second digits : ℕ, (Nat.toDigits 10 n).take 1 = Nat.toDigits 10 first ∧
      ((Nat.toDigits 10 n).drop 1).take 1 = Nat.toDigits 10 second ∧ second < 10 ∧
      (Nat.toDigits 10 n).length = digits + 2 ∧ (first * 10 + second) * 10 ^ digits = n := by
  rcases high.lt_or_eq with small | rfl
  · have first := length_toDigits_of_lt (by omega : n / 10 < 10)
    have second := length_toDigits_of_lt (by omega : n % 10 < 10)
    refine ⟨n / 10, n % 10, 0, ?_, ?_, by omega, ?_, by omega⟩
    · rw [toDigits_of_two low small, List.take_left' first]
    · rw [toDigits_of_two low small, List.drop_left' first, List.take_of_length_le second.le]
    · rw [toDigits_of_two low small, List.length_append, first, second]
  · exact ⟨1, 0, 1, rfl, rfl, by decide, rfl, rfl⟩

theorem size?_scientificText {size : Fraction} (low : 10 ≤ (size.significant 2).digits)
    (high : (size.significant 2).digits ≤ 100) : ∃ order : ℤ, (size.significant 2).unit + 1 ≤ order ∧
      size? (scientificText size) = some ⟨(size.significant 2).digits * 10 ^ (size.significant 2).unit, 10 ^ order / 20⟩ := by
  obtain ⟨first, second, digits, front, back, small, length, value⟩ := mantissa_eq low high
  refine ⟨(size.significant 2).unit + (digits + 1 : ℕ), by omega, ?_⟩
  have read := decimal?_point (digits?_toDigits first) (digits?_toDigits second)
  have free := not_mem_point (digits?_toDigits first) (digits?_toDigits second) (c := 'x') (by decide) (by decide)
  have shown := size?_scientific read free (integer?_toString ((size.significant 2).unit + (digits + 1 : ℕ)))
  have scaled : ((first : ℚ) + second / 10 ^ 1) * 10 ^ ((size.significant 2).unit + (digits + 1 : ℕ)) =
      (size.significant 2).digits * 10 ^ (size.significant 2).unit := by
    rw [← value, zpow_add₀ (by norm_num), zpow_natCast]
    push_cast
    ring
  rw [length_toDigits_of_lt small, scaled] at shown
  unfold scientificText
  dsimp only
  rw [front, back, length, List.append_assoc]
  exact shown

theorem ofText?_signed (negative : Bool) {text : List Char} {reading : Readback} (unsigned : '-' ∉ text.head?)
    (read : size? text = some reading) :
    ofText? (signed negative text) = some ⟨if negative then -reading.value else reading.value, reading.slack⟩ := by
  cases negative with
  | true => rw [signed, if_pos rfl, ofText?, read, Option.map_some, if_pos rfl]
  | false =>
    rw [signed, if_neg Bool.false_ne_true, if_neg Bool.false_ne_true]
    unfold ofText?
    split
    · exact absurd rfl unsigned
    · exact read

example : ofText? "-1.5x10^-3".toList = some ⟨-3 / 2000, 1 / 20000⟩ := by decide +kernel

/-! None of the three notations starts with a minus sign. -/

theorem unsigned_digits {front : List Char} {n : ℕ} (read : digits? front = some n) (back : List Char) :
    '-' ∉ (front ++ back).head? := by
  rw [List.head?_append_of_ne_nil _ (digits?_eq_some read).1]
  exact fun starts => not_mem_of_digits? read (by decide) (List.mem_of_head? starts)

theorem unsigned_plainText (hundredths : ℕ) : '-' ∉ (plainText hundredths).head? := by
  have read := digits?_toDigits (hundredths / 100)
  unfold plainText
  dsimp only
  split
  · rw [List.append_assoc]
    exact unsigned_digits read _
  split
  · exact unsigned_digits read _
  · have alone := unsigned_digits read []
    rwa [List.append_nil] at alone

theorem unsigned_scientificText {size : Fraction} (low : 10 ≤ (size.significant 2).digits)
    (high : (size.significant 2).digits ≤ 100) : '-' ∉ (scientificText size).head? := by
  obtain ⟨first, -, -, front, -⟩ := mantissa_eq low high
  unfold scientificText
  dsimp only
  rw [front, List.append_assoc, List.append_assoc]
  exact unsigned_digits (digits?_toDigits first) _

theorem unsigned_grouped {digits : List Char} {n : ℕ} (read : digits? digits = some n) : '-' ∉ (grouped digits).head? :=
  fun starts => not_mem_grouped read (by decide) (by decide) (List.mem_of_head? starts)

end Readback

end LoopCost
