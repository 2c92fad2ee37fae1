import Breakpoint.Text.Unprintable

/-! Quoted characters and strings. Both forms escape the same handful of characters by a letter and
spell every other unprintable character by its code point; they differ in which quote is escaped and
in whether printable characters beyond ASCII are kept. -/

namespace Breakpoint.Text

/-- A backslash followed by `c`. -/
def letterEscape (c : Char) : List Char := ['\\', c]

/-- A code point in lower-case hexadecimal, between braces after a backslash and `u`. -/
def codePointEscape (c : Char) : List Char :=
  ['\\', 'u', '\x7b'] ++ Nat.toDigits 16 c.toNat ++ ['\x7d']

/-- The letter escapes that characters and strings share. -/
def sharedEscape? (c : Char) : Option (List Char) :=
  match c with
  | '\t' => some (letterEscape 't')
  | '\r' => some (letterEscape 'r')
  | '\n' => some (letterEscape 'n')
  | '\x22' => some (letterEscape c)
  | '\\' => some (letterEscape c)
  | _ => none

/-- The text of `c` inside single quotes: only printable ASCII stands for itself. -/
def inSingleQuotes (c : Char) : List Char :=
  match sharedEscape? c with
  | some text => text
  | none =>
    if c = '\x27' then letterEscape c
    else if ' ' ≤ c && c ≤ '~' then [c]
    else codePointEscape c

/-- The text of `c` inside double quotes: every printable character stands for itself. -/
def inDoubleQuotes (c : Char) : List Char :=
  match sharedEscape? c with
  | some text => text
  | none =>
    if c = '\x00' then letterEscape '0'
    else if isUnprintable c then codePointEscape c
    else [c]

/-- A character between single quotes. -/
def quoteChar (c : Char) : String :=
  String.ofList ('\x27' :: inSingleQuotes c ++ ['\x27'])

/-- A string between double quotes. -/
def quoteString (s : String) : String :=
  String.ofList ('\x22' :: s.toList.flatMap inDoubleQuotes ++ ['\x22'])

end Breakpoint.Text
