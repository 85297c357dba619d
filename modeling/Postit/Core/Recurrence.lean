import Mathlib.Data.Finset.Basic
import Mathlib.Data.Fintype.Defs
import Mathlib.Data.List.Basic
import Postit.Core.Chrono

/-!
# Recurrence rules

The small subset of iCalendar `RRULE` that recurring posts use: `KEY=VALUE` pairs joined by `;`, in
any order.  Printing gives the canonical form.
-/

namespace Postit.Recurrence

open Postit.Chrono

def maxInterval : ℕ := 365

def maxCount : ℕ := 1000

def untilLen : ℕ := 16

/-- A day of the week, Monday first. -/
inductive Weekday
  | mo
  | tu
  | we
  | th
  | fr
  | sa
  | su
  deriving DecidableEq, Repr

namespace Weekday

/-- The days, Monday first. -/
def all : List Weekday := [mo, tu, we, th, fr, sa, su]

instance : Fintype Weekday where
  elems := {mo, tu, we, th, fr, sa, su}
  complete day := by cases day <;> decide

def asStr : Weekday → List Char
  | mo => ['M', 'O']
  | tu => ['T', 'U']
  | we => ['W', 'E']
  | th => ['T', 'H']
  | fr => ['F', 'R']
  | sa => ['S', 'A']
  | su => ['S', 'U']

def parse (value : List Char) : Option Weekday := all.find? fun day => day.asStr = value

end Weekday

/-- How often a rule repeats: daily, weekly on some days, or monthly on a day of the month. -/
inductive Frequency
  | daily
  | weekly (days : Finset Weekday)
  | monthly (day : ℕ)
  deriving DecidableEq

/-- The name of a frequency, as it is read. -/
inductive FrequencyName
  | daily
  | weekly
  | monthly
  deriving DecidableEq, Repr

def FrequencyName.asStr : FrequencyName → List Char
  | .daily => "DAILY".toList
  | .weekly => "WEEKLY".toList
  | .monthly => "MONTHLY".toList

def FrequencyName.parse (value : List Char) : Option FrequencyName :=
  [FrequencyName.daily, .weekly, .monthly].find? fun name => name.asStr = value

def Frequency.name : Frequency → FrequencyName
  | .daily => .daily
  | .weekly _ => .weekly
  | .monthly _ => .monthly

/-- When a rule stops. -/
inductive RecurrenceEnd
  | never
  | count (n : ℕ)
  | until_ (at_ : NaiveDateTime)
  deriving DecidableEq

/-- A recurrence rule. -/
structure RecurrenceRule where
  frequency : Frequency
  interval : ℕ
  end_ : RecurrenceEnd
  deriving DecidableEq

/-- The keys a rule may have. -/
inductive Key
  | freq
  | interval
  | byDay
  | byMonthDay
  | count
  | until_
  deriving DecidableEq, Repr

def Key.asStr : Key → List Char
  | .freq => "FREQ".toList
  | .interval => "INTERVAL".toList
  | .byDay => "BYDAY".toList
  | .byMonthDay => "BYMONTHDAY".toList
  | .count => "COUNT".toList
  | .until_ => "UNTIL".toList

def Key.parse (value : List Char) : Option Key :=
  [Key.freq, .interval, .byDay, .byMonthDay, .count, .until_].find? fun key => key.asStr = value

/-- Why a string is not an accepted rule. -/
inductive RecurrenceError
  | empty
  | malformed (segment : List Char)
  | duplicateKey (key : Key)
  | unsupportedKey (key : List Char)
  | unsupportedFrequency (value : List Char)
  | missingKey (key : Key)
  | invalidValue (key : Key) (value : List Char)
  | countAndUntil
  | notAllowedFor (key : Key) (frequency : FrequencyName)
  deriving DecidableEq

/-! ## Reading values -/

/-- The value of an option, or the error. -/
def orError {α : Type} (o : Option α) (e : RecurrenceError) : Except RecurrenceError α :=
  o.elim (.error e) .ok

/-- A decimal with no sign or spaces, below the bound its type has. -/
def digits (bound : ℕ) (value : List Char) : Option ℕ := (digits? value).filter (· < bound)

/-- The number of bytes of the text. -/
def len (value : List Char) : ℕ := (value.map Char.utf8Size).sum

def parseUntil (value : List Char) : Except RecurrenceError NaiveDateTime :=
  if len value ≠ untilLen then .error (.invalidValue .until_ value)
  else orError (parseFromStr value) (.invalidValue .until_ value)

def parseDays (value : List Char) : Except RecurrenceError (Finset Weekday) :=
  (value.splitOn ',').foldlM (fun days part =>
    match Weekday.parse part with
    | none => .error (.invalidValue .byDay value)
    | some day =>
      if day ∈ days then .error (.invalidValue .byDay value) else .ok (insert day days)) ∅

/-- One pair, read on its own. -/
inductive Setting
  | freq (name : FrequencyName)
  | interval (n : ℕ)
  | days (days : Finset Weekday)
  | monthDay (day : ℕ)
  | count (n : ℕ)
  | until_ (at_ : NaiveDateTime)
  deriving DecidableEq

/-- Reads the value of a key. -/
def Key.read (key : Key) (value : List Char) : Except RecurrenceError Setting :=
  match key with
  | .freq => (orError (FrequencyName.parse value) (.unsupportedFrequency value)).map .freq
  | .interval =>
    (orError ((digits (2 ^ 16) value).filter fun n => 1 ≤ n && n ≤ maxInterval)
      (.invalidValue .interval value)).map .interval
  | .byDay => (parseDays value).map .days
  | .byMonthDay =>
    (orError ((digits (2 ^ 8) value).filter fun d => 1 ≤ d && d ≤ 31)
      (.invalidValue .byMonthDay value)).map .monthDay
  | .count =>
    (orError ((digits (2 ^ 32) value).filter fun n => n ≤ maxCount && n ≠ 0)
      (.invalidValue .count value)).map .count
  | .until_ => (parseUntil value).map .until_

/-- The text before and after the first `=`. -/
def splitOnce (segment : List Char) : Option (List Char × List Char) :=
  if '=' ∈ segment then
    some (segment.takeWhile (· ≠ '='), (segment.dropWhile (· ≠ '=')).tail)
  else none

/-- Reads one segment. -/
def readSegment (segment : List Char) : Except RecurrenceError Setting := do
  let (key, value) ← orError
    ((splitOnce segment).filter fun (key, value) => !key.isEmpty && !value.isEmpty)
    (.malformed segment)
  match Key.parse key with
  | none => .error (.unsupportedKey key)
  | some key => key.read value

/-! ## Reading rules -/

/-- What the pairs read so far set. -/
structure Parts where
  freq : Option FrequencyName := none
  interval : Option ℕ := none
  days : Option (Finset Weekday) := none
  monthDay : Option ℕ := none
  count : Option ℕ := none
  until_ : Option NaiveDateTime := none
  deriving DecidableEq

/-- The slot's new value, refusing a second one. -/
def set {α : Type} (slot : Option α) (key : Key) (value : α) : Except RecurrenceError (Option α) :=
  match slot with
  | some _ => .error (.duplicateKey key)
  | none => .ok (some value)

/-- Stores a setting. -/
def Parts.store (p : Parts) : Setting → Except RecurrenceError Parts
  | .freq name => (set p.freq .freq name).map fun slot => { p with freq := slot }
  | .interval n => (set p.interval .interval n).map fun slot => { p with interval := slot }
  | .days days => (set p.days .byDay days).map fun slot => { p with days := slot }
  | .monthDay day => (set p.monthDay .byMonthDay day).map fun slot => { p with monthDay := slot }
  | .count n => (set p.count .count n).map fun slot => { p with count := slot }
  | .until_ at_ => (set p.until_ .until_ at_).map fun slot => { p with until_ := slot }

/-- Reads a segment into the parts. -/
def Parts.add (p : Parts) (segment : List Char) : Except RecurrenceError Parts := do
  let setting ← readSegment segment
  p.store setting

/-- What the frequency's name makes of the days. -/
def frequencyOf (p : Parts) : FrequencyName → Except RecurrenceError Frequency
  | .daily => .ok .daily
  | .weekly => (orError p.days (.missingKey .byDay)).map .weekly
  | .monthly => (orError p.monthDay (.missingKey .byMonthDay)).map .monthly

/-- A key that was given applies to one frequency only. -/
def onlyFor (given : Bool) (key : Key) (only : FrequencyName) (frequency : Frequency) :
    Except RecurrenceError Unit :=
  if given ∧ frequency.name ≠ only then .error (.notAllowedFor key frequency.name) else .ok ()

/-- What the count and the time make of the end. -/
def endOf : Option ℕ → Option NaiveDateTime → Except RecurrenceError RecurrenceEnd
  | some _, some _ => .error .countAndUntil
  | some n, none => .ok (.count n)
  | none, some at_ => .ok (.until_ at_)
  | none, none => .ok .never

/-- The checks across keys, once every pair was read on its own. -/
def fromParts (p : Parts) : Except RecurrenceError RecurrenceRule := do
  let freq ← orError p.freq (.missingKey .freq)
  let frequency ← frequencyOf p freq
  onlyFor p.days.isSome .byDay .weekly frequency
  onlyFor p.monthDay.isSome .byMonthDay .monthly frequency
  let end_ ← endOf p.count p.until_
  return { frequency := frequency, interval := p.interval.getD 1, end_ := end_ }

/-- Reads a rule. -/
def fromStr (s : List Char) : Except RecurrenceError RecurrenceRule :=
  if s.isEmpty then .error .empty
  else do
    let p ← (s.splitOn ';').foldlM Parts.add {}
    fromParts p

/-! ## Printing -/

/-- A number without padding. -/
def decimal (n : ℕ) : List Char := padded 1 n

/-- The days of a weekly rule, Monday first. -/
def printDays (days : Finset Weekday) : List Char :=
  [','].intercalate ((Weekday.all.filter (· ∈ days)).map Weekday.asStr)

/-- The pair that says how often, after the name of the frequency. -/
def displayFrequency : Frequency → List Char
  | .daily => []
  | .weekly days => ";BYDAY=".toList ++ printDays days
  | .monthly day => ";BYMONTHDAY=".toList ++ decimal day

/-- The pair that says until when. -/
def displayEnd : RecurrenceEnd → List Char
  | .never => []
  | .count n => ";COUNT=".toList ++ decimal n
  | .until_ at_ => ";UNTIL=".toList ++ format at_

/-- The canonical form. -/
def display (rule : RecurrenceRule) : List Char :=
  "FREQ=".toList ++ rule.frequency.name.asStr ++
    (if 1 < rule.interval then ";INTERVAL=".toList ++ decimal rule.interval else []) ++
    displayFrequency rule.frequency ++ displayEnd rule.end_

end Postit.Recurrence
