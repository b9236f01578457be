/-!
# Dates and times of TOML documents

A moment is a day of the calendar, a time of day, or both, and then possibly with the
distance from universal time. Every number has its fixed count of digits and its range;
a day must exist in its month, and a minute may end in a leap second.
-/

namespace SyntaxGraph.Toml

structure Date where
  year : Nat
  month : Nat
  day : Nat
  deriving DecidableEq, Repr

structure Time where
  hour : Nat
  minute : Nat
  second : Nat
  /-- The digits behind the point of the seconds. -/
  decimals : List Char
  deriving DecidableEq, Repr

/-- A date, a time or both. -/
inductive Moment where
  | date (date : Date)
  | time (time : Time)
  /-- A time on a day, with its distance from universal time in minutes if it has one. -/
  | dated (date : Date) (time : Time) (offset : Option Int)
  deriving DecidableEq, Repr

def isLeapYear (year : Nat) : Bool := year % 4 == 0 && (year % 100 != 0 || year % 400 == 0)

def daysIn (year month : Nat) : Nat :=
  if month = 2 then if isLeapYear year then 29 else 28
  else if month = 4 || month = 6 || month = 9 || month = 11 then 30
  else 31

/-- Read a number of exactly `count` digits between two bounds. -/
def readNumber (count least greatest : Nat) (input : List Char) : Option (Nat × List Char) :=
  let (digits, rest) := input.splitAt count
  let value := Nat.ofDigitChars 10 digits 0
  if digits.length = count && digits.all Char.isDigit && least ≤ value && value ≤ greatest then
    some (value, rest)
  else none

def readMark (mark : Char) : List Char → Option (List Char)
  | c :: rest => if c = mark then some rest else none
  | [] => none

/-- Read a day: year, month and day of the month between hyphens. -/
def readDate (input : List Char) : Option (Date × List Char) := do
  let (year, rest) ← readNumber 4 0 9999 input
  let rest ← readMark '-' rest
  let (month, rest) ← readNumber 2 1 12 rest
  let rest ← readMark '-' rest
  let (day, rest) ← readNumber 2 1 (daysIn year month) rest
  some (⟨year, month, day⟩, rest)

/-- Read an hour and a minute between colons. -/
def readMinute (input : List Char) : Option ((Nat × Nat) × List Char) := do
  let (hour, rest) ← readNumber 2 0 23 input
  let rest ← readMark ':' rest
  let (minute, rest) ← readNumber 2 0 59 rest
  some ((hour, minute), rest)

/-- Read the decimals of the seconds, if there are any. -/
def readDecimals (input : List Char) : List Char × List Char :=
  match input with
  | '.' :: rest =>
    match rest.span Char.isDigit with
    | ([], _) => ([], input)
    | (decimals, rest) => (decimals, rest)
  | _ => ([], input)

/-- Read a time of day; the seconds must be there, and may have decimals. -/
def readTime (input : List Char) : Option (Time × List Char) := do
  let ((hour, minute), rest) ← readMinute input
  let rest ← readMark ':' rest
  let (second, rest) ← readNumber 2 0 60 rest
  let (decimals, rest) := readDecimals rest
  some (⟨hour, minute, second, decimals⟩, rest)

/-- Read the distance from universal time. -/
def readOffset : List Char → Option (Int × List Char)
  | 'Z' :: rest | 'z' :: rest => some (0, rest)
  | '+' :: rest =>
    (readMinute rest).map fun ((hour, minute), rest) => ((hour * 60 + minute : Nat), rest)
  | '-' :: rest =>
    (readMinute rest).map fun ((hour, minute), rest) => (-(hour * 60 + minute : Nat), rest)
  | _ => none

/-- Whether a character stands between a day and a time. -/
def isTimeMark (c : Char) : Bool := c == 'T' || c == 't' || c == ' '

/-- Read the time that follows a day behind a mark, if one does. -/
def readTimeOf (date : Date) (input : List Char) : Moment × List Char :=
  match input with
  | [] => (.date date, input)
  | mark :: rest =>
    match if isTimeMark mark then readTime rest else none with
    | none => (.date date, input)
    | some (time, rest) =>
      match readOffset rest with
      | none => (.dated date time none, rest)
      | some (offset, rest) => (.dated date time (some offset), rest)

def readMoment (input : List Char) : Option (Moment × List Char) :=
  match readDate input with
  | some (date, rest) => some (readTimeOf date rest)
  | none => (readTime input).map fun (time, rest) => (.time time, rest)

end SyntaxGraph.Toml
