import Roster.Text.Quoted

/-!
# Octets of a text

A text is stored as UTF-8.  Reading gives the text back or says which octets are at fault: the
first sequence that is not well formed, with its position and what is wrong with it.
-/

namespace Roster
namespace Text

/-- What is wrong with a sequence of octets. -/
inductive Utf8Reason where
  | invalidStart
  | invalidContinuation
  | cutOff
  deriving DecidableEq, Repr

/-- The first ill-formed sequence: where it starts, its octets, and what is wrong. -/
structure Utf8Fault where
  position : Nat
  octets : List UInt8
  reason : Utf8Reason
  deriving DecidableEq, Repr

namespace Utf8Fault

def reasonText : Utf8Reason → String
  | .invalidStart => "invalid start byte"
  | .invalidContinuation => "invalid continuation byte"
  | .cutOff => "unexpected end of data"

/-- A sequence cut off by the end of the text is counted from its own start. -/
def shownPosition (fault : Utf8Fault) : Nat :=
  match fault.reason with
  | .cutOff => 0
  | _ => fault.position

/-- Wording of a fault whose sequence starts at a position: one octet is shown with its value,
several with their positions. -/
def messageAt (fault : Utf8Fault) (start : Nat) : String :=
  let what :=
    match fault.octets with
    | [octet] =>
        "byte 0x" ++ String.ofList (hexPadded 2 octet.toNat) ++ " in position " ++ toString start
    | octets =>
        "bytes in position " ++ toString start ++ "-" ++ toString (start + octets.length - 1)
  "'utf-8' codec can't decode " ++ what ++ ": " ++ reasonText fault.reason

/-- Wording of a fault in a file. -/
def message (fault : Utf8Fault) : String :=
  fault.messageAt fault.shownPosition

end Utf8Fault

/-- Inclusive bounds of the octets that may follow a first octet, in order; `none` when the
octet cannot start a sequence. -/
def continuationBounds (first : Nat) : Option (List (Nat × Nat)) :=
  if first < 0x80 then some []
  else if first < 0xC2 then none
  else if first < 0xE0 then some [(0x80, 0xBF)]
  else if first == 0xE0 then some [(0xA0, 0xBF), (0x80, 0xBF)]
  else if first == 0xED then some [(0x80, 0x9F), (0x80, 0xBF)]
  else if first < 0xF0 then some [(0x80, 0xBF), (0x80, 0xBF)]
  else if first == 0xF0 then some [(0x90, 0xBF), (0x80, 0xBF), (0x80, 0xBF)]
  else if first < 0xF4 then some [(0x80, 0xBF), (0x80, 0xBF), (0x80, 0xBF)]
  else if first == 0xF4 then some [(0x80, 0x8F), (0x80, 0xBF), (0x80, 0xBF)]
  else none

/-- How many octets fit the bounds in order, and the reason when not all do. -/
def fitting : List (Nat × Nat) → List UInt8 → Nat × Option Utf8Reason
  | [], _ => (0, none)
  | _ :: _, [] => (0, some .cutOff)
  | (low, high) :: bounds, octet :: rest =>
      if low ≤ octet.toNat && octet.toNat ≤ high then
        let (count, reason) := fitting bounds rest
        (count + 1, reason)
      else (0, some .invalidContinuation)

/-- The first ill-formed sequence, if there is one. -/
def firstFault : (bound position : Nat) → List UInt8 → Option Utf8Fault
  | 0, _, _ => none
  | _ + 1, _, [] => none
  | bound + 1, position, octet :: rest =>
      match continuationBounds octet.toNat with
      | none => some ⟨position, [octet], .invalidStart⟩
      | some bounds =>
          match fitting bounds rest with
          | (count, some reason) => some ⟨position, octet :: rest.take count, reason⟩
          | (count, none) => firstFault bound (position + count + 1) (rest.drop count)

/-- The text that the octets stand for. -/
def decodeUtf8 (octets : ByteArray) : Except Utf8Fault String :=
  match String.fromUTF8? octets with
  | some s => .ok s
  | none =>
      let list := octets.toList
      .error ((firstFault list.length 0 list).getD ⟨0, list, .cutOff⟩)

/-- A text is read back from its octets. -/
@[simp] theorem decodeUtf8_toUTF8 (s : String) : decodeUtf8 s.toUTF8 = .ok s := by
  have h : String.fromUTF8? s.toUTF8 = some s := by
    simp only [String.fromUTF8?, Option.dite_none_right_eq_some, Option.some.injEq]
    exact ⟨s.isValidUTF8, rfl⟩
  simp only [decodeUtf8, h]

/-- What is read is the text whose octets they are. -/
theorem decodeUtf8_eq_ok_iff {octets : ByteArray} {s : String} :
    decodeUtf8 octets = .ok s ↔ octets = s.toUTF8 := by
  constructor
  · intro h
    unfold decodeUtf8 at h
    split at h
    · rename_i text htext
      simp only [String.fromUTF8?, Option.dite_none_right_eq_some, Option.some.injEq] at htext
      rcases htext with ⟨_, rfl⟩
      cases h
      rfl
    · cases h
  · rintro rfl
    exact decodeUtf8_toUTF8 s

/-- Line ends of all three kinds become a single line feed. -/
def unifyLineEnds : List Char → List Char
  | [] => []
  | '\r' :: '\n' :: rest => '\n' :: unifyLineEnds rest
  | '\r' :: rest => '\n' :: unifyLineEnds rest
  | c :: rest => c :: unifyLineEnds rest

/-- A text without carriage returns keeps its line ends. -/
theorem unifyLineEnds_eq_self {cs : List Char} (h : '\r' ∉ cs) : unifyLineEnds cs = cs := by
  induction cs with
  | nil => rfl
  | cons c rest ih =>
      simp only [List.mem_cons, not_or] at h
      unfold unifyLineEnds
      split <;> simp_all

end Text
end Roster
