import Iec61850.TimeUtil

/-! MMS data values. -/
namespace Iec61850.Mms
open TimeUtil

inductive DataAccessError where
  | objectInvalidated
  | hardwareFault
  | temporarilyUnavailable
  | objectAccessDenied
  | objectUndefined
  | invalidAddress
  | typeUnsupported
  | typeInconsistent
  | objectAttributeInconsistent
  | objectAccessUnsupported
  | objectNonExistent
  | objectValueInvalid
  | other (code : UInt8)
deriving DecidableEq

namespace DataAccessError

def code : DataAccessError → UInt8
  | objectInvalidated => 0
  | hardwareFault => 1
  | temporarilyUnavailable => 2
  | objectAccessDenied => 3
  | objectUndefined => 4
  | invalidAddress => 5
  | typeUnsupported => 6
  | typeInconsistent => 7
  | objectAttributeInconsistent => 8
  | objectAccessUnsupported => 9
  | objectNonExistent => 10
  | objectValueInvalid => 11
  | other n => n

def text : DataAccessError → String
  | objectInvalidated => "object-invalidated"
  | hardwareFault => "hardware-fault"
  | temporarilyUnavailable => "temporarily-unavailable"
  | objectAccessDenied => "object-access-denied"
  | objectUndefined => "object-undefined"
  | invalidAddress => "invalid-address"
  | typeUnsupported => "type-unsupported"
  | typeInconsistent => "type-inconsistent"
  | objectAttributeInconsistent => "object-attribute-inconsistent"
  | objectAccessUnsupported => "object-access-unsupported"
  | objectNonExistent => "object-non-existent"
  | objectValueInvalid => "object-value-invalid"
  | other n => "data-access-error(" ++ Nat.repr n.toNat ++ ")"

end DataAccessError

/-- Packed bits, the most significant bit of an octet first, and how many of them are valid. -/
structure BitString where
  bits : List UInt8
  length : ℕ
deriving DecidableEq

namespace BitString

def new (n : ℕ) : BitString := { bits := List.replicate ((n + 7) / 8) 0, length := n }

def bit (bs : BitString) (i : ℕ) : Bool :=
  if bs.length ≤ i then false
  else (bs.bits.getD (i / 8) 0).toNat.testBit (7 - i % 8)

def setBit (bs : BitString) (i : ℕ) (v : Bool) : BitString :=
  if bs.length ≤ i then bs
  else
    let mask := UInt8.ofNat (2 ^ (7 - i % 8))
    { bs with bits := bs.bits.modify (i / 8) fun b => if v then b ||| mask else b &&& ~~~mask }

end BitString

/-- The eight octets of a `UtcTime`. -/
structure UtcOctets where
  octets : List UInt8
  length_eq : octets.length = 8
deriving DecidableEq

inductive ValueType where
  | none
  | array
  | struct
  | boolean
  | bitString
  | integer
  | unsigned
  | float32
  | float64
  | octetString
  | visibleString
  | generalizedTime
  | binaryTime
  | mmsString
  | utcTime
  | dataAccessError
deriving DecidableEq

inductive Value where
  | none
  | array (children : List Value)
  | struct (members : List Value)
  | boolean (b : Bool)
  | bitString (bs : BitString)
  | integer (n : Int64)
  | unsigned (n : UInt64)
  | float32 (bits : UInt32)
  | float64 (bits : UInt64)
  | octetString (b : List UInt8)
  | visibleString (b : List UInt8)
  | generalizedTime (b : List UInt8)
  | binaryTime (b : List UInt8)
  | mmsString (b : List UInt8)
  | utcTime (b : UtcOctets)
  | dataAccessError (e : DataAccessError)

/-- How the standard library writes a floating point value, and a text in quotes. -/
structure Render where
  float32 : UInt32 → String
  float64 : UInt64 → String
  quoted : String → String

/-- A floating point number with `mant` fraction bits and `exp` exponent bits, cut to a whole number
and clamped to 64 bits; not-a-number gives zero. -/
def truncFloat (mant exp bits : ℕ) : ℤ :=
  let fraction := bits % 2 ^ mant
  let e := bits / 2 ^ mant % 2 ^ exp
  let bias := 2 ^ (exp - 1) - 1
  let significand := 2 ^ mant + fraction
  let magnitude : ℤ :=
    if e = 2 ^ exp - 1 then (if fraction = 0 then 2 ^ 64 else 0)
    -- A subnormal number is below one.
    else if e = 0 then 0
    else if bias + mant ≤ e then (significand * 2 ^ (e - bias - mant) : ℕ)
    else (significand / 2 ^ (bias + mant - e) : ℕ)
  let n := if bits / 2 ^ (mant + exp) % 2 = 1 then -magnitude else magnitude
  max (-2 ^ 63) (min n (2 ^ 63 - 1))

def sameFloat (mant exp a b : ℕ) : Bool :=
  let special (x : ℕ) : Bool := x / 2 ^ mant % 2 ^ exp == 2 ^ exp - 1 && x % 2 ^ mant != 0
  let zero (x : ℕ) : Bool := x % 2 ^ (mant + exp) == 0
  (special a && special b) || (!special a && !special b && (a == b || (zero a && zero b)))

namespace Value

def visibleText (s : String) : Value := visibleString (Text.octets s)

def uint8 (n : UInt8) : Value := unsigned n.toUInt64
def uint16 (n : UInt16) : Value := unsigned n.toUInt64
def uint32 (n : UInt32) : Value := unsigned n.toUInt64
def int8 (n : Int8) : Value := integer n.toInt64
def int16 (n : Int16) : Value := integer n.toInt64

def binaryTimeOf (t : SystemTime) : Value :=
  let (secs, nanos) := unixParts t
  let ms := ((secs % 86400) * 1000 + (nanos / 1000000 : ℕ)).toNat
  let days := (max (secs / 86400 - binaryTimeEpochDays) 0).toNat
  binaryTime [UInt8.ofNat (ms / 2 ^ 24), UInt8.ofNat (ms / 2 ^ 16), UInt8.ofNat (ms / 2 ^ 8),
    UInt8.ofNat ms, UInt8.ofNat (days / 2 ^ 8), UInt8.ofNat days]

def typeOf : Value → ValueType
  | none => .none
  | array _ => .array
  | struct _ => .struct
  | boolean _ => .boolean
  | bitString _ => .bitString
  | integer _ => .integer
  | unsigned _ => .unsigned
  | float32 _ => .float32
  | float64 _ => .float64
  | octetString _ => .octetString
  | visibleString _ => .visibleString
  | generalizedTime _ => .generalizedTime
  | binaryTime _ => .binaryTime
  | mmsString _ => .mmsString
  | utcTime _ => .utcTime
  | dataAccessError _ => .dataAccessError

def asBool : Value → Bool
  | boolean b => b
  | _ => false

def asI64 : Value → Int64
  | integer n => n
  | unsigned n => n.toInt64
  | boolean b => if b then 1 else 0
  | float32 bits => Int64.ofInt (truncFloat 23 8 bits.toNat)
  | float64 bits => Int64.ofInt (truncFloat 52 11 bits.toNat)
  | _ => 0

def asU64 : Value → UInt64
  | unsigned n => n
  | v => v.asI64.toUInt64

def asU32 (v : Value) : UInt32 := v.asU64.toUInt32

def bytes : Value → List UInt8
  | bitString bs => bs.bits
  | octetString b | visibleString b | generalizedTime b | binaryTime b | mmsString b => b
  | utcTime b => b.octets
  | _ => []

def bitLen : Value → ℕ
  | bitString bs => bs.length
  | _ => 0

def bit (v : Value) (i : ℕ) : Bool :=
  match v with
  | bitString bs => bs.bit i
  | _ => false

def setBit (v : Value) (i : ℕ) (on : Bool) : Value :=
  match v with
  | bitString bs => bitString (bs.setBit i on)
  | v => v

def children : Value → List Value
  | array c | struct c => c
  | _ => []

/-- The time a `UtcTime` or a `BinaryTime` stands for. -/
def time : Value → Option SystemTime
  | utcTime b =>
    let o (i : ℕ) : ℕ := (b.octets.getD i 0).toNat
    let secs := ((o 0 * 256 + o 1) * 256 + o 2) * 256 + o 3
    let frac := (o 4 * 256 + o 5) * 256 + o 6
    some (fromUnix secs (frac * 1000000000 / 2 ^ 24))
  | binaryTime b =>
    if b.length = 4 ∨ b.length = 6 then
      let o (i : ℕ) : ℕ := (b.getD i 0).toNat
      let ms := ((o 0 * 256 + o 1) * 256 + o 2) * 256 + o 3
      let days : ℕ := if b.length = 6 then o 4 * 256 + o 5 else 0
      some (fromUnix ((binaryTimeEpochDays + days) * 86400 + (ms / 1000 : ℕ)) (ms % 1000 * 1000000))
    else Option.none
  | _ => Option.none

def timeQuality : Value → UInt8
  | utcTime b => b.octets.getD 7 0
  | _ => 0

mutual
/-- Deep equality of type and content; two floating point values that are not numbers are equal. -/
def beq : Value → Value → Bool
  | none, none => true
  | array a, array b => beqAll a b
  | struct a, struct b => beqAll a b
  | boolean a, boolean b => a == b
  | bitString a, bitString b => a == b
  | integer a, integer b => a == b
  | unsigned a, unsigned b => a == b
  | float32 a, float32 b => sameFloat 23 8 a.toNat b.toNat
  | float64 a, float64 b => sameFloat 52 11 a.toNat b.toNat
  | octetString a, octetString b => a == b
  | visibleString a, visibleString b => a == b
  | generalizedTime a, generalizedTime b => a == b
  | binaryTime a, binaryTime b => a == b
  | mmsString a, mmsString b => a == b
  | utcTime a, utcTime b => a == b
  | dataAccessError a, dataAccessError b => a == b
  | _, _ => false

def beqAll : List Value → List Value → Bool
  | [], [] => true
  | a :: as, b :: bs => beq a b && beqAll as bs
  | _, _ => false
end

def hexDigits (b : UInt8) : String :=
  String.ofList [Nat.digitChar (b.toNat / 16), Nat.digitChar (b.toNat % 16)]

mutual
def display (r : Render) : Value → String
  | none => "<none>"
  | boolean b => if b then "true" else "false"
  | integer n => Int.repr n.toInt
  | unsigned n => Nat.repr n.toNat
  | float32 bits => r.float32 bits
  | float64 bits => r.float64 bits
  | visibleString b | mmsString b | generalizedTime b => r.quoted (Text.fromUtf8Lossy b)
  | octetString b => String.join (b.map hexDigits)
  | bitString bs => String.ofList ((List.range bs.length).map fun i => if bs.bit i then '1' else '0')
  | utcTime b =>
    match (utcTime b).time with
    | some t => formatSystemTime t
    | Option.none => "<invalid-time>"
  | binaryTime b =>
    match (binaryTime b).time with
    | some t => formatSystemTime t
    | Option.none => "<invalid-time>"
  | array c => "[" ++ String.intercalate ", " (displayAll r c) ++ "]"
  | struct c => "\x7b" ++ String.intercalate ", " (displayAll r c) ++ "\x7d"
  | dataAccessError e => "error:" ++ e.text

def displayAll (r : Render) : List Value → List String
  | [] => []
  | v :: vs => display r v :: displayAll r vs
end

def text (r : Render) : Value → String
  | visibleString b | mmsString b | generalizedTime b => Text.fromUtf8Lossy b
  | v => v.display r

end Value
end Iec61850.Mms
