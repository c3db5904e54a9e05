/-! UTF-8 read one octet at a time. Between octets the reader owes some continuation octets, the next
of them within bounds that rule out overlong forms, surrogates and points past the last. An octet out
of its bounds ends the character begun so far: a strict reading fails there, a lenient one writes the
replacement character and takes the octet up again as a first one. -/
namespace FlagSurvey.Text

/-- A character begun: octets still owed, the bounds of the next one, and the bits read so far. -/
structure Begun where
  owed : Nat
  low : Nat
  high : Nat
  bits : Nat

inductive Octet where
  | whole (c : Char)
  | opens (begun : Begun)
  | stray

def firstOctet (b : Nat) : Octet :=
  if b < 0x80 then .whole (Char.ofNat b)
  else if 0xc2 ≤ b && b ≤ 0xdf then .opens ⟨1, 0x80, 0xbf, b - 0xc0⟩
  else if b == 0xe0 then .opens ⟨2, 0xa0, 0xbf, 0⟩
  else if b == 0xed then .opens ⟨2, 0x80, 0x9f, 0xd⟩
  else if 0xe1 ≤ b && b ≤ 0xef then .opens ⟨2, 0x80, 0xbf, b - 0xe0⟩
  else if b == 0xf0 then .opens ⟨3, 0x90, 0xbf, 0⟩
  else if 0xf1 ≤ b && b ≤ 0xf3 then .opens ⟨3, 0x80, 0xbf, b - 0xf0⟩
  else if b == 0xf4 then .opens ⟨3, 0x80, 0x8f, 4⟩
  else .stray

def Begun.next (begun : Begun) (b : Nat) : Octet :=
  if begun.low ≤ b && b ≤ begun.high then
    let bits := begun.bits * 64 + (b - 0x80)
    if begun.owed ≤ 1 then .whole (Char.ofNat bits)
    else .opens ⟨begun.owed - 1, 0x80, 0xbf, bits⟩
  else .stray

def replacement : Char := '\ufffd'

def lenientFrom : Option Begun → List Char → List UInt8 → List Char
  | none, done, [] => done.reverse
  | some _, done, [] => (replacement :: done).reverse
  | pending, done, b :: rest =>
    let asFirst (done : List Char) : Option Begun × List Char :=
      match firstOctet b.toNat with
      | .whole c => (none, c :: done)
      | .opens begun => (some begun, done)
      | .stray => (none, replacement :: done)
    let (pending, done) :=
      match pending with
      | none => asFirst done
      | some begun =>
        match begun.next b.toNat with
        | .whole c => (none, c :: done)
        | .opens begun => (some begun, done)
        | .stray => asFirst (replacement :: done)
    lenientFrom pending done rest

def strictFrom : Option Begun → List Char → List UInt8 → Option (List Char)
  | none, done, [] => some done.reverse
  | some _, _, [] => none
  | pending, done, b :: rest =>
    let octet := match pending with
      | none => firstOctet b.toNat
      | some begun => begun.next b.toNat
    match octet with
    | .whole c => strictFrom none (c :: done) rest
    | .opens begun => strictFrom (some begun) done rest
    | .stray => none

def decodeLenient (octets : List UInt8) : String := String.ofList (lenientFrom none [] octets)

def decode? (octets : List UInt8) : Option String := (strictFrom none [] octets).map String.ofList

def encode (text : String) : List UInt8 := text.toUTF8.toList

end FlagSurvey.Text
