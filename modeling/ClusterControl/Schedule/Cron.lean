import ClusterControl.Decimal.Reading
import ClusterControl.Schedule.Calendar

/-!
# Recurring schedules

A schedule says for seconds, minutes, hours, days of the month, months, days of the week and years
which values are allowed; it fires at every second where all seven agree.  Its text gives the
fields in this order, the year optional, or names one of a few common schedules.
-/

namespace ClusterControl

/-! ## Fields -/

/-- The range of a field and the names of its values. -/
structure ScheduleUnit where
  min : Nat
  max : Nat
  /-- Names in lower case. -/
  names : List (String × Nat)
  /-- A question mark may stand for every value. -/
  allowsAny : Bool

namespace ScheduleUnit

def seconds : ScheduleUnit := ⟨0, 59, [], false⟩
def minutes : ScheduleUnit := ⟨0, 59, [], false⟩
def hours : ScheduleUnit := ⟨0, 23, [], false⟩
def daysOfMonth : ScheduleUnit := ⟨1, 31, [], true⟩

def months : ScheduleUnit :=
  { min := 1, max := 12, allowsAny := false
    names := [("jan", 1), ("january", 1), ("feb", 2), ("february", 2), ("mar", 3), ("march", 3),
      ("apr", 4), ("april", 4), ("may", 5), ("jun", 6), ("june", 6), ("jul", 7), ("july", 7),
      ("aug", 8), ("august", 8), ("sep", 9), ("september", 9), ("oct", 10), ("october", 10),
      ("nov", 11), ("november", 11), ("dec", 12), ("december", 12)] }

def daysOfWeek : ScheduleUnit :=
  { min := 1, max := 7, allowsAny := true
    names := [("sun", 1), ("sunday", 1), ("mon", 2), ("monday", 2), ("tue", 3), ("tues", 3),
      ("tuesday", 3), ("wed", 4), ("wednesday", 4), ("thu", 5), ("thurs", 5), ("thursday", 5),
      ("fri", 6), ("friday", 6), ("sat", 7), ("saturday", 7)] }

def years : ScheduleUnit := ⟨1970, 2100, [], false⟩

/-- Every value of the unit, in order. -/
def all (u : ScheduleUnit) : List Nat := (List.range (u.max + 1 - u.min)).map (u.min + ·)

def isValid (u : ScheduleUnit) (n : Nat) : Bool := u.min ≤ n && n ≤ u.max

/-- The values from one to another, which must be in order and in range. -/
def between? (u : ScheduleUnit) (lo hi : Nat) : Option (List Nat) :=
  if u.isValid lo && u.isValid hi && lo ≤ hi then some ((List.range (hi + 1 - lo)).map (lo + ·))
  else none

/-- The value of a name, in any letter case. -/
def named? (u : ScheduleUnit) (name : List Char) : Option Nat :=
  let lower := String.ofList (name.map Char.toLower)
  (u.names.find? (·.1 == lower)).map (·.2)

end ScheduleUnit

/-- What one part of a field's text asks for. -/
inductive ScheduleRange
  | all
  | point (n : Nat)
  | span (lo hi : Nat)
  | namedSpan (lo hi : List Char)
  deriving Repr

/-- One item of a field's list. -/
inductive ScheduleItem
  | range (r : ScheduleRange)
  | every (r : ScheduleRange) (step : Nat)
  | named (name : List Char)
  deriving Repr

namespace ScheduleRange

def values? (u : ScheduleUnit) : ScheduleRange → Option (List Nat)
  | all => some u.all
  | point n => if u.isValid n then some [n] else none
  | span lo hi => u.between? lo hi
  | namedSpan lo hi => do u.between? (← u.named? lo) (← u.named? hi)

end ScheduleRange

/-- Every `step`-th item of a list, from the first on. -/
def everyNth {β : Type} (step : Nat) (l : List β) : List β :=
  (l.zipIdx.filter fun p => p.2 % step == 0).map (·.1)

/-- The values of an item; a single value with a step means all from it on. -/
def ScheduleItem.values? (u : ScheduleUnit) : ScheduleItem → Option (List Nat)
  | range r => r.values? u
  | every r step =>
    if step = 0 then none
    else
      match r with
      | .point n => (u.between? n u.max).map (everyNth step)
      | r => (r.values? u).map (everyNth step)
  | named name => (u.named? name).map ([·])

/-! ## Reading -/

namespace ScheduleText

/-- A reader takes a value off the front of a text. -/
abbrev Reader (β : Type) := List Char → Option (β × List Char)

def isBlank (c : Char) : Bool := c == ' ' || c == '\t' || c == '\r' || c == '\n'

def isLetter (c : Char) : Bool := ('a' ≤ c && c ≤ 'z') || ('A' ≤ c && c ≤ 'Z')

/-- At least one character of a class, with blanks on both sides. -/
def word (p : Char → Bool) : Reader (List Char) := fun s =>
  match (s.dropWhile isBlank).span p with
  | ([], _) => none
  | (w, rest) => some (w, rest.dropWhile isBlank)

/-- A number of at most 32 bits. -/
def number : Reader Nat := fun s => do
  let (ds, rest) ← word Char.isDigit s
  let n := Decimal.ofDigits ds
  if n ≤ 4294967295 then some (n, rest) else none

/-- One character that has to come next. -/
def mark (c : Char) : Reader Unit
  | d :: rest => if d = c then some ((), rest) else none
  | [] => none

/-- One character with blanks on both sides. -/
def looseMark (c : Char) : Reader Unit := fun s => do
  let ((), rest) ← mark c (s.dropWhile isBlank)
  some ((), rest.dropWhile isBlank)

def range (u : ScheduleUnit) : Reader ScheduleRange := fun s =>
  let any := if u.allowsAny then looseMark '?' s else none
  let span : Option (ScheduleRange × List Char) := do
    let (lo, rest) ← number s
    let ((), rest) ← mark '-' rest
    let (hi, rest) ← number rest
    some (.span lo hi, rest)
  let namedSpan : Option (ScheduleRange × List Char) := do
    let (lo, rest) ← word isLetter s
    let ((), rest) ← mark '-' rest
    let (hi, rest) ← word isLetter rest
    some (.namedSpan lo hi, rest)
  (any.map fun r => (.all, r.2)) <|> ((looseMark '*' s).map fun r => (.all, r.2)) <|> span
    <|> ((number s).map fun r => (.point r.1, r.2)) <|> namedSpan

def item (u : ScheduleUnit) : Reader ScheduleItem := fun s =>
  let every : Option (ScheduleItem × List Char) := do
    let (r, rest) ← range u s
    let ((), rest) ← mark '/' rest
    let (step, rest) ← number rest
    some (.every r step, rest)
  every <|> ((range u s).map fun r => (.range r.1, r.2))
    <|> ((word isLetter s).map fun r => (.named r.1, r.2))

/-- The further items of a list, each after a comma; the first argument bounds their number. -/
def moreItems (u : ScheduleUnit) : Nat → List Char → List ScheduleItem × List Char
  | 0, s => ([], s)
  | fuel + 1, s =>
    match (mark ',' s).bind fun r => item u r.2 with
    | some (i, rest) =>
      let (is, rest) := moreItems u fuel rest
      (i :: is, rest)
    | none => ([], s)

/-- The allowed values of one field, in order. -/
def field (u : ScheduleUnit) : Reader (List Nat) := fun s => do
  let (first, rest) ← item u (s.dropWhile isBlank)
  let (more, rest) := moreItems u rest.length rest
  let values ← (first :: more).mapM (ScheduleItem.values? u)
  some (u.all.filter fun n => values.any (·.contains n), rest.dropWhile isBlank)

end ScheduleText

/-- The allowed values of every field, each in order. -/
structure Schedule where
  seconds : List Nat
  minutes : List Nat
  hours : List Nat
  daysOfMonth : List Nat
  months : List Nat
  daysOfWeek : List Nat
  years : List Nat
  deriving DecidableEq, Repr

namespace Schedule

/-- Every hour on the hour. -/
def hourly : Schedule :=
  { seconds := [0], minutes := [0], hours := ScheduleUnit.hours.all
    daysOfMonth := ScheduleUnit.daysOfMonth.all, months := ScheduleUnit.months.all
    daysOfWeek := ScheduleUnit.daysOfWeek.all, years := ScheduleUnit.years.all }

def daily : Schedule := { hourly with hours := [0] }

def weekly : Schedule := { daily with daysOfWeek := [1] }

def monthly : Schedule := { daily with daysOfMonth := [1] }

def yearly : Schedule := { monthly with months := [1] }

/-- Six fields, or seven with the year. -/
def ofFields? (text : String) : Option Schedule := do
  let (seconds, s) ← ScheduleText.field .seconds text.toList
  let (minutes, s) ← ScheduleText.field .minutes s
  let (hours, s) ← ScheduleText.field .hours s
  let (daysOfMonth, s) ← ScheduleText.field .daysOfMonth s
  let (months, s) ← ScheduleText.field .months s
  let (daysOfWeek, s) ← ScheduleText.field .daysOfWeek s
  let (years, s) := (ScheduleText.field .years s).getD (ScheduleUnit.years.all, s)
  if s.isEmpty then
    some { seconds, minutes, hours, daysOfMonth, months, daysOfWeek, years }
  else none

/-- The schedule that a text describes. -/
def parse? (text : String) : Option Schedule :=
  match text with
  | "@yearly" => some yearly
  | "@monthly" => some monthly
  | "@weekly" => some weekly
  | "@daily" => some daily
  | "@hourly" => some hourly
  | text => ofFields? text

/-! ## Firing times -/

/-- The schedule fires on a day. -/
def matchesDay (s : Schedule) (dayNumber : Int) : Bool :=
  let d := Date.ofDayNumber dayNumber
  s.years.any (fun y => (y : Int) == d.year) && s.months.contains d.month
    && s.daysOfMonth.contains d.day && s.daysOfWeek.contains (weekday dayNumber)

/-- The first firing second of a matching day, counted from midnight, not before a bound. -/
def firstInDay (s : Schedule) (bound : Nat) : Option Nat :=
  s.hours.findSome? fun h =>
    if (h + 1) * 3600 ≤ bound then none
    else s.minutes.findSome? fun m =>
      if h * 3600 + (m + 1) * 60 ≤ bound then none
      else (s.seconds.find? fun sec => bound ≤ h * 3600 + m * 60 + sec).map fun sec =>
        h * 3600 + m * 60 + sec

/-- The first firing time on one of `days` days, the first of them not before a bound. -/
def searchDays (s : Schedule) : Nat → Int → Nat → Option Int
  | 0, _, _ => none
  | days + 1, day, bound =>
    match if s.matchesDay day then s.firstInDay bound else none with
    | some t => some (day * 86400 + t)
    | none => searchDays s days (day + 1) 0

/-- The last day of the last year a schedule can name. -/
def lastDay : Int := Date.dayNumber ⟨2100, 12, 31⟩

/-- The first firing time after a given one, both in seconds from 1 January 1970. -/
def nextAfter (s : Schedule) (after : Int) : Option Int :=
  let start := max 0 (after + 1)
  let day := start / 86400
  s.searchDays (lastDay - day + 1).toNat day (start % 86400).toNat

/-- Up to `n` firing times after a given one; `none` stands for the end of the schedule. -/
def upcoming (s : Schedule) : Nat → Int → List (Option Int)
  | 0, _ => []
  | n + 1, after =>
    match s.nextAfter after with
    | some t => some t :: upcoming s n t
    | none => [none]

end Schedule

/-- A text that describes no schedule. -/
structure UnreadableSchedule where
  text : String
  deriving DecidableEq, Repr

def UnreadableSchedule.message (u : UnreadableSchedule) : String :=
  "Invalid reconfiguration schedule: " ++ u.text

/-- The schedule that a text describes, or the text as the reason why there is none. -/
def Schedule.read (text : String) : Except UnreadableSchedule Schedule :=
  match Schedule.parse? text with
  | some s => .ok s
  | none => .error ⟨text⟩

end ClusterControl
