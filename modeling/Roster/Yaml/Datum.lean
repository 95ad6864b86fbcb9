import Roster.Storage.Clock
import Roster.Value.Display
import Roster.Yaml.Fault
import Roster.Yaml.Timestamp

/-!
# Data of a document

A document stands for data: scalars, octets, moments, lists, maps with keys of any scalar kind,
sets and lists of pairs.  An alias inside the collection that it stands for is a loop.
-/

namespace Roster
namespace Yaml

/-- Data of a document. Collections know their anchor, because loops refer to it. -/
inductive Datum where
  /-- A scalar that other documents have as well. -/
  | scalar (v : Value)
  | octets (octets : List UInt8)
  | moment (t : Timestamp)
  | list (anchor : Option String) (items : List Datum)
  | map (anchor : Option String) (entries : List (Datum × Datum))
  | set (anchor : Option String) (members : List Datum)
  | pairs (anchor : Option String) (entries : List (Datum × Datum))
  | loop (anchor : String) (isMapping : Bool)

/-! ## Moments as text -/

namespace Timestamp

/-- Millionths of a second. -/
def micros (time : TimeOfDay) : Nat :=
  number ((time.fraction ++ List.replicate 6 '0').take 6)

/-- Distance from universal time in seconds, if one is written. -/
def offset? (time : TimeOfDay) : Option Int :=
  time.zone.map fun
    | .universal => 0
    | .offset negative hours minutes =>
        let size : Int := (hours * 3600 + minutes * 60 : Nat)
        if negative then -size else size

/-- Distance from universal time behind a time of day. -/
def offsetText (offset : Int) : String :=
  let minutes := offset.natAbs / 60
  (if offset < 0 then "-" else "+") ++ Moment.padded 2 (minutes / 60) ++ ":"
    ++ Moment.padded 2 (minutes % 60)

/-- Text of a moment that stands alone. -/
def text (t : Timestamp) : String :=
  let day := Moment.padded 4 t.year ++ "-" ++ Moment.padded 2 t.month ++ "-"
    ++ Moment.padded 2 t.day
  match t.time with
  | none => day
  | some time =>
      day ++ " " ++ Moment.padded 2 time.hour ++ ":" ++ Moment.padded 2 time.minute ++ ":"
        ++ Moment.padded 2 time.second
        ++ (if micros time == 0 then "" else "." ++ Moment.padded 6 (micros time))
        ++ ((offset? time).elim "" offsetText)

/-- Days and seconds of a distance, the seconds counted forward. -/
def offsetParts (offset : Int) : String :=
  let days := offset.fdiv 86400
  let seconds := offset.fmod 86400
  String.intercalate ", "
    ((if days == 0 then [] else ["days=" ++ toString days])
      ++ (if seconds == 0 then [] else ["seconds=" ++ toString seconds]))

/-- Text of a moment inside a collection. -/
def shown (t : Timestamp) : String :=
  let parts (numbers : List Nat) : String := String.intercalate ", " (numbers.map toString)
  match t.time with
  | none => "datetime.date(" ++ parts [t.year, t.month, t.day] ++ ")"
  | some time =>
      let fine :=
        if micros time != 0 then [time.second, micros time]
        else if time.second != 0 then [time.second] else []
      let zone :=
        match offset? time with
        | none => ""
        | some 0 => ", tzinfo=datetime.timezone.utc"
        | some offset =>
            ", tzinfo=datetime.timezone(datetime.timedelta(" ++ offsetParts offset ++ "))"
      "datetime.datetime(" ++ parts ([t.year, t.month, t.day, time.hour, time.minute] ++ fine)
        ++ zone ++ ")"

def daysOf (year month : Nat) : Nat :=
  if month == 2 then
    if year % 4 == 0 && (year % 100 != 0 || year % 400 == 0) then 29 else 28
  else if [4, 6, 9, 11].contains month then 30 else 31

/-- The first part of a moment that is out of range. -/
def fault? (t : Timestamp) : Option MomentFault :=
  let dayFault :=
    if t.year == 0 then some (.year t.year)
    else if t.month == 0 || 12 < t.month then some .month
    else if t.day == 0 || daysOf t.year t.month < t.day then some .day
    else none
  match t.time with
  | none => dayFault
  | some time =>
      let offset := (offset? time).getD 0
      if 86400 ≤ offset.natAbs then
        some (.offset (offset.fdiv 86400) (offset.fmod 86400).toNat)
      else
        dayFault.or
          (if 23 < time.hour then some .hour
          else if 59 < time.minute then some .minute
          else if 59 < time.second then some .second
          else none)

/-- Days before a day, counted from the start of the year 0. -/
def dayNumber (t : Timestamp) : Int :=
  let years : Int := if t.month ≤ 2 then (t.year : Int) - 1 else t.year
  let march : Int := (t.month + 9) % 12
  365 * years + years.fdiv 4 - years.fdiv 100 + years.fdiv 400 + (153 * march + 2) / 5 + t.day

/-- Moments are the same: both days, or both times with or both without a distance from universal
time, which is taken into account. -/
def same (a b : Timestamp) : Bool :=
  match a.time, b.time with
  | none, none => a.dayNumber == b.dayNumber
  | some s, some t =>
      let seconds (m : Timestamp) (time : TimeOfDay) : Int :=
        m.dayNumber * 86400 + ((time.hour * 3600 + time.minute * 60 + time.second : Nat) : Int)
          - (offset? time).getD 0
      (offset? s).isSome == (offset? t).isSome && seconds a s == seconds b t
        && micros s == micros t
  | _, _ => false

end Timestamp

/-! ## Data as text -/

namespace Datum

def isHashable : Datum → Bool
  | .scalar _ | .octets _ | .moment _ => true
  | _ => false

/-- Keys are the same when their values are; what is no number is the same as itself. -/
def sameKey : Datum → Datum → Bool
  | .scalar (.float .nan), .scalar (.float .nan) => true
  | .scalar a, .scalar b => a.sameScalar b
  | .octets a, .octets b => a == b
  | .moment a, .moment b => a.same b
  | _, _ => false

/-- Set a key: in place when it is there, else at the end. -/
def setKey (entries : List (Datum × Datum)) (key value : Datum) : List (Datum × Datum) :=
  match entries with
  | [] => [(key, value)]
  | (k, v) :: rest => if k.sameKey key then (k, value) :: rest else (k, v) :: setKey rest key value

/-- Entries with each key once. -/
def ofEntries (entries : List (Datum × Datum)) : List (Datum × Datum) :=
  entries.foldl (fun acc entry => setKey acc entry.1 entry.2) []

/-- What stands for a collection inside itself. -/
def loopText (isMapping : Bool) : String :=
  if isMapping then "\x7b...\x7d" else "[...]"

mutual

/-- Text of data inside a collection. `inside` has the anchors of the collections around it;
`unroll` gives the text for a loop to another one. -/
def shownIn (unroll : List String → String → Bool → String) (inside : List String) :
    Datum → String
  | .scalar v => v.shown
  | .octets data => Text.quotedOctets data
  | .moment t => t.shown
  | .list anchor items =>
      "[" ++ String.intercalate ", " (shownItems unroll (anchor.toList ++ inside) items) ++ "]"
  | .map anchor entries =>
      "\x7b" ++ String.intercalate ", "
        (shownEntries unroll (anchor.toList ++ inside) ": " entries) ++ "\x7d"
  | .set _ [] => "set()"
  | .set anchor members =>
      "\x7b" ++ String.intercalate ", " (shownItems unroll (anchor.toList ++ inside) members)
        ++ "\x7d"
  | .pairs anchor entries =>
      "[" ++ String.intercalate ", "
        ((shownEntries unroll (anchor.toList ++ inside) ", " entries).map fun entry =>
          "(" ++ entry ++ ")") ++ "]"
  | .loop anchor isMapping =>
      if inside.contains anchor then loopText isMapping else unroll inside anchor isMapping

/-- Texts of the items of a collection. -/
def shownItems (unroll : List String → String → Bool → String) (inside : List String) :
    List Datum → List String
  | [] => []
  | d :: rest => shownIn unroll inside d :: shownItems unroll inside rest

/-- Texts of the entries of a collection, with a separator behind each key. -/
def shownEntries (unroll : List String → String → Bool → String) (inside : List String)
    (separator : String) : List (Datum × Datum) → List String
  | [] => []
  | (k, v) :: rest =>
      (shownIn unroll inside k ++ separator ++ shownIn unroll inside v)
        :: shownEntries unroll inside separator rest

end

/-- Text of data that stands alone inside a document; a loop to the document as a whole goes
through it once. -/
def text (d whole : Datum) : String :=
  match d with
  | .scalar v => v.text
  | .moment t => t.text
  | d =>
      shownIn (fun inside anchor isMapping =>
        match whole with
        | .map (some name) entries =>
            if name == anchor then
              shownIn (fun _ _ isMapping => loopText isMapping) inside (.map (some name) entries)
            else loopText isMapping
        | _ => loopText isMapping) [] d

mutual

/-- Whole numbers of the data are short enough to be written. -/
def isWritable : Datum → Bool
  | .scalar (.int i) => i.natAbs < 10 ^ 4300
  | .list _ items | .set _ items => areWritable items
  | .map _ entries | .pairs _ entries => entriesAreWritable entries
  | _ => true

def areWritable : List Datum → Bool
  | [] => true
  | d :: rest => isWritable d && areWritable rest

/-- All keys and values can be written. -/
def entriesAreWritable : List (Datum × Datum) → Bool
  | [] => true
  | (k, v) :: rest => isWritable k && isWritable v && entriesAreWritable rest

end

end Datum
end Yaml
end Roster
