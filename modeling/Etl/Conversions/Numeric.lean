import Etl.Common.DigitGroups
import Etl.Types.Cell

/-! # Numerics

Parsing, printing and the wire format of Postgres numerics. A numeric keeps its digits in groups of
four, with the weight of the first group as a signed 16-bit number. The parser works on 32-bit
numbers that no text of less than a gigabyte overflows; the printer counts groups in 16 bits, as
`Int.bmod` says.

Reference: `etl/src/conversions/numeric.rs` (`PgNumeric::from_str`, `from_sql`, `to_sql`).
-/

namespace Etl

/-- Why a text is not a numeric. -/
inductive ParseNumericError where
  | invalidSyntax | valueOutOfRange
  deriving DecidableEq, Repr

abbrev NumericResult (α : Type) : Type := Except ParseNumericError α

/-- The characters with the Unicode property `White_Space`. -/
def isWhitespace (c : Char) : Bool :=
  let n := c.toNat
  (0x9 ≤ n && n ≤ 0xD) || n = 0x20 || n = 0x85 || n = 0xA0 || n = 0x1680 ||
    (0x2000 ≤ n && n ≤ 0x200A) || n = 0x2028 || n = 0x2029 || n = 0x202F || n = 0x205F ||
    n = 0x3000

def skipWhitespace (chars : List Char) : List Char := chars.dropWhile isWhitespace

def peeksDigit (chars : List Char) : Bool := chars.head?.any Char.isDigit

/-- Parses `NaN` and the infinities. Only ASCII letters have the letters of these words as their
lower case. -/
def parseSpecialValue (chars : List Char) (sign : Sign) (hasExplicitSign : Bool) :
    NumericResult PgNumeric :=
  let remainingLower := (chars.reverse.dropWhile isWhitespace).reverse.map Char.toLower
  if remainingLower = "nan".toList then
    if hasExplicitSign then .error .invalidSyntax else .ok .nan
  else if remainingLower = "infinity".toList ∨ remainingLower = "inf".toList then
    match sign with
    | .positive => .ok .positiveInfinity
    | .negative => .ok .negativeInfinity
  else .error .invalidSyntax

/-! ## Decimal digits -/

/-- The state of the digit loop. -/
structure DecimalScan where
  decimalDigits : List ℕ := []
  haveDecimalPoint : Bool := false
  /-- Digits before the decimal point, less one. -/
  dweight : ℤ := -1
  /-- Digits after the decimal point. -/
  dscale : ℕ := 0
  deriving DecidableEq, Repr

/-- Takes a digit. -/
def DecimalScan.push (st : DecimalScan) (digit : ℕ) : DecimalScan :=
  if st.haveDecimalPoint then
    { st with decimalDigits := st.decimalDigits ++ [digit], dscale := st.dscale + 1 }
  else { st with decimalDigits := st.decimalDigits ++ [digit], dweight := st.dweight + 1 }

/-- The digit loop. It ends at the first character that is no digit, point or underscore. -/
def scanDecimal (st : DecimalScan) : List Char → NumericResult (DecimalScan × List Char)
  | [] => .ok (st, [])
  | ch :: rest =>
    if ch.isDigit then scanDecimal (st.push (ch.toNat - '0'.toNat)) rest
    else if ch = '.' then
      if st.haveDecimalPoint then .error .invalidSyntax
      else if rest.head? = some '_' then .error .invalidSyntax
      else scanDecimal { st with haveDecimalPoint := true } rest
    else if ch = '_' then
      if peeksDigit rest then scanDecimal st rest else .error .invalidSyntax
    else .ok (st, ch :: rest)

/-- The loop over the digits of an exponent. -/
def scanExponentDigits (exponent : ℤ) : List Char → NumericResult (ℤ × List Char)
  | [] => .ok (exponent, [])
  | ch :: rest =>
    if ch.isDigit then
      let exponent := exponent * 10 + (ch.toNat - '0'.toNat : ℕ)
      if (2 ^ 31 - 1) / 2 < exponent then .error .valueOutOfRange
      else scanExponentDigits exponent rest
    else if ch = '_' then
      if peeksDigit rest then scanExponentDigits exponent rest else .error .invalidSyntax
    else .ok (exponent, ch :: rest)

/-- Scientific notation moves the decimal point. -/
def scanExponent (st : DecimalScan) (chars : List Char) :
    NumericResult (ℤ × ℕ × List Char) :=
  match chars with
  | [] => .ok (st.dweight, st.dscale, [])
  | ch :: rest =>
    if ch = 'e' ∨ ch = 'E' then do
      let (expNegative, rest) :=
        match rest with
        | '+' :: rest => (false, rest)
        | '-' :: rest => (true, rest)
        | rest => (false, rest)
      if !peeksDigit rest then .error .invalidSyntax
      else do
        let (exponent, rest) ← scanExponentDigits 0 rest
        let exponent := if expNegative then -exponent else exponent
        .ok (st.dweight + exponent, (st.dscale - exponent).toNat, rest)
    else .ok (st.dweight, st.dscale, ch :: rest)

/-! ## Base 10000 -/

/-- Removes zeros in front, but keeps one digit. -/
def stripLeadingZeros : List ℤ → List ℤ
  | first :: second :: rest =>
    if first = 0 then stripLeadingZeros (second :: rest) else first :: second :: rest
  | digits => digits

/-- Removes zeros at the end, but keeps one digit. -/
def stripTrailingZeros (digits : List ℤ) : List ℤ := (stripLeadingZeros digits.reverse).reverse

def groupWeight (dweight : ℤ) : ℤ :=
  if 0 ≤ dweight then (dweight + 4) / 4 - 1 else -((-dweight - 1) / 4 + 1)

/-- The digits with zeros around them, so that groups of four start at the decimal point. -/
def paddedDigits (decimalDigits : List ℕ) (dweight : ℤ) : List ℕ :=
  let offset := (groupWeight dweight + 1) * 4 - (dweight + 1)
  let totalDecimalDigits := decimalDigits.length + offset
  let ndigits := (totalDecimalDigits + 3) / 4
  List.replicate offset.toNat 0 ++ decimalDigits ++
    List.replicate (ndigits * 4 - totalDecimalDigits).toNat 0

/-- Converts decimal digits to groups of four without zero groups at either end. -/
def convertToBase10000 (decimalDigits : List ℕ) (dweight : ℤ) (dscale : ℕ) (sign : Sign) :
    NumericResult PgNumeric :=
  if 2 ^ 16 ≤ dscale then .error .valueOutOfRange
  else if decimalDigits = [] then .ok (.value .positive 0 dscale [])
  else
    let base10000Digits := digitGroups (paddedDigits decimalDigits dweight)
    if base10000Digits.all fun d => d = 0 then .ok (.value .positive 0 dscale [])
    else
      let leadingZeros := (base10000Digits.takeWhile fun d => d = 0).length
      let finalWeight := groupWeight dweight - leadingZeros
      if finalWeight < -2 ^ 15 ∨ 2 ^ 15 ≤ finalWeight then .error .valueOutOfRange
      else .ok (.value sign finalWeight dscale
        (stripTrailingZeros (stripLeadingZeros base10000Digits)))

def postgresNumericMaxScale : ℕ := 16383

/-- Parses a regular numeric. -/
def parseNumericValue (chars : List Char) (sign : Sign) : NumericResult PgNumeric := do
  let (st, chars) : DecimalScan × List Char :=
    match chars with
    | '.' :: rest => ({ haveDecimalPoint := true }, rest)
    | chars => ({}, chars)
  if !peeksDigit chars then .error .invalidSyntax
  else do
    let (st, chars) ← scanDecimal st chars
    let (dweight, dscale, chars) ← scanExponent st chars
    if skipWhitespace chars ≠ [] then .error .invalidSyntax
    else if postgresNumericMaxScale < dscale then .error .valueOutOfRange
    else convertToBase10000 st.decimalDigits dweight dscale sign

/-- What follows the sign is a regular numeric when it starts with a digit or a point. -/
def parseUnsigned (chars : List Char) (sign : Sign) (hasExplicitSign : Bool) :
    NumericResult PgNumeric :=
  if peeksDigit chars ∨ chars.head? = some '.' then parseNumericValue chars sign
  else parseSpecialValue chars sign hasExplicitSign

namespace PgNumeric

/-- Parses a numeric. -/
def fromStr (input : String) : NumericResult PgNumeric :=
  match skipWhitespace input.toList with
  | [] => .error .invalidSyntax
  | '+' :: rest => parseUnsigned rest .positive true
  | '-' :: rest => parseUnsigned rest .negative true
  | chars => parseUnsigned chars .positive false

end PgNumeric

/-! ## Printing -/

/-- Prints a group with leading zeros to a width of four, a minus sign included. -/
def formatGroup (digit : ℤ) : List Char :=
  if digit < 0 then '-' :: (Nat.toDigits 10 digit.natAbs).leftpad 3 '0'
  else (Nat.toDigits 10 digit.natAbs).leftpad 4 '0'

/-- The group with an index, and zero outside of the stored groups. -/
def digitAt (digits : List ℤ) (d : ℤ) : ℤ := if 0 ≤ d then digits.getD d.toNat 0 else 0

/-- Prints the groups before the decimal point, the first without its zeros. -/
def formatWhole (weight : ℤ) (digits : List ℤ) : List Char :=
  (List.range (weight + 1).toNat).flatMap fun d =>
    let decimalDigits := formatGroup (digits.getD d 0)
    if d = 0 then
      let trimmed := decimalDigits.dropWhile fun c => c = '0'
      if trimmed = [] then ['0'] else trimmed
    else decimalDigits

/-- Prints digits after the decimal point, from a group on. The index is a 16-bit number. -/
def formatFraction (digits : List ℤ) : ℕ → ℤ → List Char
  | remainingScale + 4, d =>
    (formatGroup (digitAt digits d)).take 4 ++
      formatFraction digits remainingScale ((d + 1).bmod (2 ^ 16))
  | remainingScale, d => (formatGroup (digitAt digits d)).take remainingScale

def formatNumericValue (sign : Sign) (weight : ℤ) (scale : ℕ) (digits : List ℤ) : List Char :=
  if digits = [] then ['0']
  else
    (if sign = .negative then ['-'] else []) ++
      (if weight < 0 then ['0'] else formatWhole weight digits) ++
      (if 0 < scale then '.' :: formatFraction digits scale ((weight + 1).bmod (2 ^ 16)) else [])

namespace PgNumeric

/-- Prints a numeric. -/
def display : PgNumeric → String
  | .nan => "NaN"
  | .positiveInfinity => "Infinity"
  | .negativeInfinity => "-Infinity"
  | .value sign weight scale digits => String.ofList (formatNumericValue sign weight scale digits)

end PgNumeric

/-! ## Wire format -/

/-- The two bytes of a 16-bit number, most significant first. -/
def toBeBytes (n : ℤ) : List UInt8 :=
  [UInt8.ofNat ((n % 2 ^ 16).toNat / 2 ^ 8), UInt8.ofNat ((n % 2 ^ 16).toNat % 2 ^ 8)]

def Sign.toU16 : Sign → ℕ
  | .positive => 0x0000
  | .negative => 0x4000

/-- The sign a number stands for, or the number itself. -/
def Sign.tryFrom (value : ℕ) : Except ℕ Sign :=
  if value = 0x0000 then .ok .positive
  else if value = 0x4000 then .ok .negative
  else .error value

theorem Sign.tryFrom_toU16 (sign : Sign) : Sign.tryFrom sign.toU16 = .ok sign := by
  cases sign <;> rfl

/-- Writes a numeric. A numeric with more groups than 16 bits can count is rejected. -/
def PgNumeric.toSql : PgNumeric → Option (List UInt8)
  | .nan => write 0xC000 0 0 []
  | .positiveInfinity => write 0xD000 0 0 []
  | .negativeInfinity => write 0xF000 0 0 []
  | .value sign weight scale digits => write sign.toU16 weight scale digits
where
  write (sign : ℕ) (weight : ℤ) (scale : ℕ) (digits : List ℤ) : Option (List UInt8) :=
    if digits.length < 2 ^ 16 then
      some (toBeBytes digits.length ++ (toBeBytes weight ++ (toBeBytes sign ++ (toBeBytes scale ++
        digits.flatMap toBeBytes))))
    else none

/-- Why bytes are not a numeric. -/
inductive FromSqlError where
  | unexpectedEof
  | invalidSign (sign : ℕ)
  deriving DecidableEq, Repr

abbrev FromSqlResult (α : Type) : Type := Except FromSqlError α

def readU16 : List UInt8 → FromSqlResult (ℕ × List UInt8)
  | high :: low :: rest => .ok (high.toNat * 2 ^ 8 + low.toNat, rest)
  | _ => .error .unexpectedEof

def readI16 (raw : List UInt8) : FromSqlResult (ℤ × List UInt8) := do
  let (n, raw) ← readU16 raw
  .ok ((n : ℤ).bmod (2 ^ 16), raw)

def readDigits : ℕ → List UInt8 → FromSqlResult (List ℤ)
  | 0, _ => .ok []
  | n + 1, raw => do
    let (digit, raw) ← readI16 raw
    let digits ← readDigits n raw
    .ok (digit :: digits)

/-- Reads a numeric. What follows the digits is ignored. -/
def PgNumeric.fromSql (raw : List UInt8) : FromSqlResult PgNumeric := do
  let (numDigits, raw) ← readU16 raw
  let (weight, raw) ← readI16 raw
  let (sign, raw) ← readU16 raw
  match Sign.tryFrom sign with
  | .ok sign => do
    let (scale, raw) ← readU16 raw
    let digits ← readDigits numDigits raw
    .ok (.value sign weight scale digits)
  | .error 0xC000 => .ok .nan
  | .error 0xD000 => .ok .positiveInfinity
  | .error 0xF000 => .ok .negativeInfinity
  | .error v => .error (.invalidSign v)

example : PgNumeric.fromStr "-12345.678" = .ok (.value .negative 1 3 [1, 2345, 6780]) := by decide
example : (PgNumeric.value .negative 1 3 [1, 2345, 6780]).display = "-12345.678" := by decide

end Etl
