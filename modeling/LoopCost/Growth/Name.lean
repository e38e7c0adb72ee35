import LoopCost.Text.Lexeme

/-! The names a piece of code uses. A name is a word that starts with an ASCII letter or an underscore and
is not reserved in the C family; numbers with their suffixes are words, but no names. -/

namespace LoopCost

abbrev Name := List Char

def reservedWords : List Name := [
  "auto", "break", "case", "char", "const", "continue", "default", "do", "double", "else", "enum", "extern",
  "float", "for", "goto", "if", "inline", "int", "long", "register", "restrict", "return", "short", "signed",
  "sizeof", "static", "struct", "switch", "typedef", "union", "unsigned", "void", "volatile", "while",
  "_Bool", "_Complex", "alignas", "alignof", "and", "and_eq", "asm", "bitand", "bitor", "bool", "catch",
  "char8_t", "char16_t", "char32_t", "class", "compl", "concept", "consteval", "constexpr", "constinit",
  "const_cast", "co_await", "co_return", "co_yield", "decltype", "delete", "dynamic_cast", "explicit",
  "export", "friend", "mutable", "namespace", "new", "noexcept", "not", "not_eq", "operator", "or", "or_eq",
  "private", "protected", "public", "reinterpret_cast", "requires", "static_assert", "static_cast",
  "template", "this", "thread_local", "throw", "try", "typeid", "typename", "using", "virtual", "wchar_t",
  "xor", "xor_eq", "true", "false", "nullptr", "NULL"].map String.toList

/-- Whether a word can be an identifier. -/
def startsName : List Char → Bool
  | [] => false
  | first :: _ => first == '_' || first.isAlpha

def Lexeme.name? : Lexeme → Option Name
  | .word letters => if startsName letters && !reservedWords.contains letters then some letters else none
  | .mark _ => none

/-- The names of a text in order, each as often as it occurs. -/
def freeNames (text : List Char) : List Name := (Lexeme.ofText text).filterMap Lexeme.name?

end LoopCost
