import Namesake.Text.Quoted

/-
  This file defines what can be wrong with a text at the
  level of single tokens, and the wording of each fault.

  Key definitions include:
    * `Fault.Cause`
    * `Fault.Cause.message`
    * `Fault`
-/

namespace Namesake

------------------------------------------------------------
-- Number Forms
------------------------------------------------------------

/- The way a number literal is written, by how it starts. -/
inductive NumberForm where
  | decimal
  | leadingZero
  | octal
  | hexadecimal
  | binary
deriving DecidableEq, Repr

namespace NumberForm

/- The base of the digits. -/
def base : NumberForm → Nat
  | .decimal => 10
  | .leadingZero | .octal => 8
  | .hexadecimal => 16
  | .binary => 2

/- The name of the form in messages. -/
def describe : NumberForm → String
  | .decimal => "decimal literal"
  | .leadingZero | .octal => "octal literal"
  | .hexadecimal => "hexadecimal literal"
  | .binary => "binary literal"

end NumberForm

------------------------------------------------------------
-- Faults
------------------------------------------------------------

/- The reasons for which a text fails to form tokens. -/
inductive Fault.Cause where
  | nul
  | encoding
  | wideEncoding
  | byteOrderMark
  | illegal (code : Nat)
  | curlyQuote (code : Nat)
  | stringOpen
  | rawStringOpen
  | charOpen
  | charLength
  | commentOpen
  | escapeUnknown
  | escapeOpen
  | escapeDigit (code : Nat)
  | escapeRange
  | radixPoint (form : NumberForm)
  | noDigits (form : NumberForm)
  | decimalExponent (letter : Nat)
  | hexExponent (letter : Nat)
  | exponentDigits
  | hexMantissa
  | digit (letter : Nat) (form : NumberForm)
  | separator
  | lineNumber (text : Bytes)
  | columnNumber (text : Bytes)
deriving DecidableEq, Repr

/- The wording of a fault. -/
def Fault.Cause.message : Fault.Cause → Bytes
  | .nul => utf8 "illegal character NUL"
  | .encoding => utf8 "illegal UTF-8 encoding"
  | .wideEncoding => utf8 "illegal UTF-8 encoding (got UTF-16)"
  | .byteOrderMark => utf8 "illegal byte order mark"
  | .illegal code => utf8 "illegal character " ++ Quoted.codePoint code
  | .curlyQuote code =>
      utf8 "curly quotation mark " ++ Quoted.encodeChar code ++
        utf8 " (use neutral '\"')"
  | .stringOpen => utf8 "string literal not terminated"
  | .rawStringOpen => utf8 "raw string literal not terminated"
  | .charOpen => utf8 "rune literal not terminated"
  | .charLength => utf8 "illegal rune literal"
  | .commentOpen => utf8 "comment not terminated"
  | .escapeUnknown => utf8 "unknown escape sequence"
  | .escapeOpen => utf8 "escape sequence not terminated"
  | .escapeDigit code =>
      utf8 "illegal character " ++ Quoted.codePoint code ++
        utf8 " in escape sequence"
  | .escapeRange =>
      utf8 "escape sequence is invalid Unicode code point"
  | .radixPoint form =>
      utf8 "invalid radix point in " ++ utf8 form.describe
  | .noDigits form => utf8 form.describe ++ utf8 " has no digits"
  | .decimalExponent letter =>
      Quoted.encodeChar letter ++
        utf8 " exponent requires decimal mantissa"
  | .hexExponent letter =>
      Quoted.encodeChar letter ++
        utf8 " exponent requires hexadecimal mantissa"
  | .exponentDigits => utf8 "exponent has no digits"
  | .hexMantissa =>
      utf8 "hexadecimal mantissa requires a 'p' exponent"
  | .digit letter form =>
      utf8 "invalid digit " ++ Quoted.encodeChar letter ++
        utf8 " in " ++ utf8 form.describe
  | .separator => utf8 "'_' must separate successive digits"
  | .lineNumber text => utf8 "invalid line number: " ++ text
  | .columnNumber text => utf8 "invalid column number: " ++ text

/- A fault and the offset it is reported at. -/
structure Fault where
  offset : Nat
  cause : Fault.Cause
deriving DecidableEq, Repr

end Namesake
