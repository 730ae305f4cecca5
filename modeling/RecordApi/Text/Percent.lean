import RecordApi.Text.Blank
import RecordApi.Text.Quoted
import RecordApi.Uuid

/-!
# Percent signs in addresses

In an address `%xx` stands for an octet, and octets stand for characters by UTF-8.
Octets that form no character become the replacement character.
-/

namespace RecordApi
namespace Text

/-- How many octets follow the first one of a character, and between which bounds the
next one lies. -/
def leadOctet? (b : Nat) : Option (Nat × Nat × Nat) :=
  if 0xc2 ≤ b && b ≤ 0xdf then some (1, 0x80, 0xbf)
  else if b = 0xe0 then some (2, 0xa0, 0xbf)
  else if b = 0xed then some (2, 0x80, 0x9f)
  else if 0xe1 ≤ b && b ≤ 0xef then some (2, 0x80, 0xbf)
  else if b = 0xf0 then some (3, 0x90, 0xbf)
  else if 0xf1 ≤ b && b ≤ 0xf3 then some (3, 0x80, 0xbf)
  else if b = 0xf4 then some (3, 0x80, 0x8f)
  else none

/-- Reads the octets that continue a character, as many as are right: whether they all
are, the code point so far, and their number. -/
def continuation : Nat → Nat → Nat → Nat → List Nat → Bool × Nat × Nat
  | 0, _, _, point, _ => (true, point, 0)
  | _ + 1, _, _, point, [] => (false, point, 0)
  | count + 1, low, high, point, b :: rest =>
      if low ≤ b && b ≤ high then
        let (complete, point, taken) := continuation count 0x80 0xbf (point * 64 + b % 64) rest
        (complete, point, taken + 1)
      else (false, point, 0)

/-- The characters of octets in UTF-8.  The start of a character that breaks off becomes
one replacement character. -/
def decodeOctets (octets : List Nat) : List Char :=
  match octets with
  | [] => []
  | b :: rest =>
      if b < 0x80 then Char.ofNat b :: decodeOctets rest
      else
        match leadOctet? b with
        | none => '\ufffd' :: decodeOctets rest
        | some (count, low, high) =>
            let lead := b % (1 <<< (6 - count))
            let (complete, point, taken) := continuation count low high lead rest
            (if complete then Char.ofNat point else '\ufffd') :: decodeOctets (rest.drop taken)
termination_by octets.length
decreasing_by all_goals (simp only [List.length_drop, List.length_cons]; omega)

/-- Reads the written octets of a text, beside the characters that stand for themselves. -/
def octetTokens : List Char → List (Char ⊕ Nat)
  | [] => []
  | '%' :: a :: b :: rest =>
      match Uuid.hexValue? a, Uuid.hexValue? b with
      | some high, some low => .inr (high * 16 + low) :: octetTokens rest
      | _, _ => .inl '%' :: octetTokens (a :: b :: rest)
  | c :: rest => .inl c :: octetTokens rest

/-- The characters of some tokens; `octets` are those that were read just before. -/
def tokenChars : List Nat → List (Char ⊕ Nat) → List Char
  | octets, [] => decodeOctets octets
  | octets, .inr b :: rest => tokenChars (octets ++ [b]) rest
  | octets, .inl c :: rest => decodeOctets octets ++ c :: tokenChars [] rest

/-- Replaces written octets by the characters for which they stand. -/
def percentDecoded (cs : List Char) : List Char :=
  tokenChars [] (octetTokens cs)

def octetsOf (c : Char) : List Nat :=
  (String.ofList [c]).toUTF8.toList.map UInt8.toNat

/-- Characters that are never written as octets. -/
def isUnreserved (c : Char) : Bool :=
  (c.toNat < 0x80 && c.isAlphanum) || c == '-' || c == '.' || c == '_' || c == '~'

/-- Writes all characters as octets but the unreserved ones and some others. -/
def percentEncoded (safe : Char → Bool) (cs : List Char) : List Char :=
  cs.flatMap fun c =>
    if isUnreserved c || safe c then [c]
    else (octetsOf c).flatMap fun b => '%' :: (hexDigits 2 b).map Char.toUpper

/-- The names and values of a query, which ampersands separate; a plus is a blank. -/
def queryItems (cs : List Char) : List (String × String) :=
  let decoded (part : List Char) : String :=
    String.ofList (percentDecoded (part.map fun c => if c = '+' then ' ' else c))
  ((piecesOf '&' cs).filter (!·.isEmpty)).map fun item =>
    let name := item.takeWhile (· ≠ '=')
    (decoded name, decoded (item.drop (name.length + 1)))

end Text
end RecordApi
