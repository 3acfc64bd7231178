import PodWebhook.Text.Shown

/-!
Instants with a resolution of nanoseconds, as ISO 8601 writes them: a date, a time of day and an
offset from UTC. Dates and times come with separators or without; seconds, minutes and the fraction
may be left out. An instant is written in UTC to the second, digits of the fraction dropped.
-/

namespace PodWebhook

structure Timestamp where
  /-- Whole seconds since 1970-01-01T00:00:00Z. -/
  seconds : Int
  nanoseconds : Nat
  deriving DecidableEq, Repr, Inhabited

namespace Timestamp

def daysFromCivil (year : Int) (month day : Nat) : Int :=
  let y := if month ≤ 2 then year - 1 else year
  let era := y.fdiv 400
  let yearOfEra := y - era * 400
  let shifted : Int := if month > 2 then (month : Int) - 3 else month + 9
  let dayOfYear := (153 * shifted + 2) / 5 + day - 1
  era * 146097 + (yearOfEra * 365 + yearOfEra / 4 - yearOfEra / 100 + dayOfYear) - 719468

structure Civil where
  year : Int
  month : Int
  day : Int
  deriving DecidableEq, Repr

def civilFromDays (days : Int) : Civil :=
  let z := days + 719468
  let era := z.fdiv 146097
  let dayOfEra := z - era * 146097
  let yearOfEra := (dayOfEra - dayOfEra / 1460 + dayOfEra / 36524 - dayOfEra / 146096) / 365
  let dayOfYear := dayOfEra - (365 * yearOfEra + yearOfEra / 4 - yearOfEra / 100)
  let shifted := (5 * dayOfYear + 2) / 153
  let month := if shifted < 10 then shifted + 3 else shifted - 9
  let year := yearOfEra + era * 400
  ⟨if month ≤ 2 then year + 1 else year, month, dayOfYear - (153 * shifted + 2) / 5 + 1⟩

def padded (width : Nat) (n : Nat) : String :=
  let digits := Nat.repr n
  String.ofList (List.replicate (width - digits.length) '0') ++ digits

def yearText (year : Int) : String :=
  if year < 0 then "-" ++ padded 3 year.natAbs else padded 4 year.natAbs

def secondText (t : Timestamp) : String :=
  let days := t.seconds.fdiv 86400
  let second := (t.seconds - days * 86400).toNat
  let date := civilFromDays days
  yearText date.year ++ "-" ++ padded 2 date.month.toNat ++ "-" ++ padded 2 date.day.toNat ++ "T" ++
    padded 2 (second / 3600) ++ ":" ++ padded 2 (second / 60 % 60) ++ ":" ++
    padded 2 (second % 60)

def toText (t : Timestamp) : String := t.secondText ++ "Z"

def toMicrosecondText (t : Timestamp) : String :=
  t.secondText ++ "." ++ padded 6 (t.nanoseconds / 1000) ++ "Z"

def isLeap (year : Int) : Bool :=
  year % 4 == 0 && (year % 100 != 0 || year % 400 == 0)

def daysInMonth (year : Int) (month : Nat) : Nat :=
  match month with
  | 2 => if isLeap year then 29 else 28
  | 4 | 6 | 9 | 11 => 30
  | _ => 31

inductive Part where
  | year
  | signedYear
  | month
  | day
  | hour
  | minute
  | second
  | offsetHour
  | offsetMinute
  | offsetSecond
  deriving DecidableEq, Repr

namespace Part

def digits : Part → Nat
  | year => 4
  | signedYear => 6
  | _ => 2

/-- What its range is called, the least value and the greatest one. The second added to a day now
and then has the number 60. -/
def range : Part → String × Int × Int
  | year | signedYear => ("year", -9999, 9999)
  | month => ("month", 1, 12)
  | day => ("day", 1, 31)
  | hour => ("hour", 0, 23)
  | minute => ("minute", 0, 59)
  | second => ("second", 0, 60)
  | offsetHour => ("time zone offset hours", -25, 25)
  | offsetMinute => ("time zone offset minutes", -59, 59)
  | offsetSecond => ("time zone offset seconds", -59, 59)

def contains (part : Part) (n : Nat) : Bool :=
  part.range.2.1 ≤ n && n ≤ part.range.2.2

def place : Part → String
  | offsetHour => "failed to parse hours in UTC numeric offset: "
  | offsetMinute => "failed to parse minutes in UTC numeric offset: "
  | offsetSecond => "failed to parse seconds in UTC numeric offset: "
  | _ => ""

def wanted : Part → String
  | year => "four digit year (or leading sign for six digit year)"
  | signedYear => "six digit year (because of a leading sign)"
  | month => "two digit month"
  | day => "two digit day"
  | hour => "two digit hour"
  | minute => "two digit minute"
  | second => "two digit second"
  | offsetHour => "two digit hour after sign"
  | offsetMinute => "two digit minute after hours"
  | offsetSecond => "two digit second after minutes"

def task : Part → String
  | year => "four digit integer as year"
  | signedYear => "six digit integer as year"
  | month => "two digit integer as month"
  | day => "two digit integer as day"
  | hour => "two digit integer as hour"
  | minute => "two digit integer as minute"
  | second => "two digit integer as second"
  | offsetHour => "hours (requires a two digit integer)"
  | offsetMinute => "minutes (requires a two digit integer)"
  | offsetSecond => "seconds (requires a two digit integer)"

end Part

inductive ReadError where
  | endOfInput (part : Part)
  | notDigit (part : Part) (found : UInt8)
  | outOfRange (part : Part)
  | noSuchDay (year : Int) (month last : Nat)
  | yearMinusZero
  | separatorMissing (found : Option UInt8)
  | separatorUnwanted
  | noFraction
  | timeMissing
  | offsetMissing
  | overflow (offset : Int)
  | unclosedBracket
  | unparsed (read left : Bytes)
  deriving Repr

namespace ReadError

def offsetText (offset : Int) : String :=
  let n := offset.natAbs
  (if offset < 0 then "-" else "+") ++ padded 2 (n / 3600) ++
    (if n % 3600 = 0 then "" else ":" ++ padded 2 (n / 60 % 60)) ++
    (if n % 60 = 0 then "" else ":" ++ padded 2 (n % 60))

def message : ReadError → String
  | endOfInput part =>
    part.place ++ "expected " ++ part.wanted ++ ", but found end of input"
  | notDigit part found =>
    part.place ++ "failed to parse " ++ part.task ++ ": invalid digit, expected 0-9 but got " ++
      Text.shownByte found
  | outOfRange part =>
    let (name, low, high) := part.range
    part.place ++ "failed to parse " ++ part.task ++ ": parameter '" ++ name ++
      "' is not in the required range of " ++ low.repr ++ "..=" ++ high.repr
  | noSuchDay year month last =>
    "parsed date is not valid: parameter 'day' for \x60" ++ yearText year ++ "-" ++
      padded 2 month ++ "\x60 is invalid, must be in range \x601..=" ++ Nat.repr last ++ "\x60"
  | yearMinusZero =>
    "year zero must be written without a sign or a positive sign, but not a negative sign"
  | separatorMissing none => "expected \x60-\x60 separator, but found end of input"
  | separatorMissing (some b) =>
    "expected \x60-\x60 separator, but found \x60" ++ Text.shownByte b ++ "\x60"
  | separatorUnwanted =>
    "expected no separator since none was found after the year, but found a \x60-\x60 separator"
  | noFraction =>
    "found decimal after seconds component, but did not find any decimal digits after decimal"
  | timeMissing => "failed to find time component, which is required for parsing a timestamp"
  | offsetMissing => "failed to find offset component, which is required for parsing a timestamp"
  | overflow offset =>
    "failed to convert civil datetime to timestamp with offset " ++ offsetText offset ++
      ": converting datetime with time zone offset \x60" ++ offsetText offset ++
      "\x60 to timestamp overflowed: parameter 'Unix timestamp seconds' is not in the required " ++
      "range of -377705023201..=253402207200"
  | unclosedBracket => "expected a bracket closed by \x60]\x60"
  | unparsed read left =>
    "parsed value '" ++ Text.shown read ++ "', but unparsed input \"" ++ Text.shown left ++
      "\" remains (expected no unparsed input)"

end ReadError

abbrev Reading := Except ReadError

/-! Each part is read from the front; what follows it comes along. -/

def number (digits : Bytes) : Nat :=
  digits.foldl (fun n b => 10 * n + Bytes.digit b) 0

def readPart (part : Part) (bytes : Bytes) : Reading (Nat × Bytes) :=
  let digits := bytes.take part.digits
  if digits.length < part.digits then .error (.endOfInput part)
  else
    match digits.find? fun b => !Bytes.isDigit b with
    | some b => .error (.notDigit part b)
    | none =>
      if part.contains (number digits) then .ok (number digits, bytes.drop part.digits)
      else .error (.outOfRange part)

def readYear (bytes : Bytes) : Reading (Int × Bytes) :=
  match bytes with
  | 0x2d :: rest => do
    let (n, rest) ← readPart .signedYear rest
    if n = 0 then .error .yearMinusZero else .ok (-(n : Int), rest)
  | 0x2b :: rest => do
    let (n, rest) ← readPart .signedYear rest
    .ok (n, rest)
  | _ => do
    let (n, rest) ← readPart .year bytes
    .ok (n, rest)

/-- Dates have their hyphens in both places or in none. -/
def dateSeparator (extended : Bool) (bytes : Bytes) : Reading Bytes :=
  match extended, bytes with
  | true, 0x2d :: rest => .ok rest
  | true, [] => .error (.separatorMissing none)
  | true, b :: _ => .error (.separatorMissing (some b))
  | false, 0x2d :: _ => .error .separatorUnwanted
  | false, _ => .ok bytes

def readDate (bytes : Bytes) : Reading (Int × Bytes) := do
  let (year, rest) ← readYear bytes
  let extended := rest.head? == some 0x2d
  let rest ← dateSeparator extended rest
  let (month, rest) ← readPart .month rest
  let rest ← dateSeparator extended rest
  let (day, rest) ← readPart .day rest
  let last := daysInMonth year month
  if day ≤ last then .ok (daysFromCivil year month day, rest)
  else .error (.noSuchDay year month last)

def timeSeparator (extended : Bool) (bytes : Bytes) : Bool × Bytes :=
  if extended then
    match bytes with
    | 0x3a :: rest => (true, rest)
    | _ => (false, bytes)
  else
    match bytes with
    | a :: b :: _ => (Bytes.isDigit a && Bytes.isDigit b, bytes)
    | _ => (false, bytes)

/-- Nanoseconds after a point or comma; at most nine digits belong to them. -/
def readFraction (bytes : Bytes) : Reading (Nat × Bytes) :=
  match bytes with
  | b :: rest =>
    if b = 0x2e ∨ b = 0x2c then
      let digits := (rest.take 9).takeWhile Bytes.isDigit
      if digits.isEmpty then .error .noFraction
      else .ok (number digits * Nat.pow 10 (9 - digits.length), rest.drop digits.length)
    else .ok (0, bytes)
  | [] => .ok (0, bytes)

structure TimeOfDay where
  seconds : Nat
  nanoseconds : Nat

/-- The second that is added to a day counts as the second before it. -/
def readTime (bytes : Bytes) : Reading (TimeOfDay × Bytes) := do
  let (hour, rest) ← readPart .hour bytes
  let extended := rest.head? == some 0x3a
  match timeSeparator extended rest with
  | (false, rest) => .ok (⟨hour * 3600, 0⟩, rest)
  | (true, rest) =>
    let (minute, rest) ← readPart .minute rest
    match timeSeparator extended rest with
    | (false, rest) => .ok (⟨hour * 3600 + minute * 60, 0⟩, rest)
    | (true, rest) =>
      let (second, rest) ← readPart .second rest
      let (nanoseconds, rest) ← readFraction rest
      .ok (⟨hour * 3600 + minute * 60 + min second 59, nanoseconds⟩, rest)

def readOffsetParts (bytes : Bytes) : Reading (Nat × Bytes) := do
  let (hour, rest) ← readPart .offsetHour bytes
  let extended := rest.head? == some 0x3a
  match timeSeparator extended rest with
  | (false, rest) => .ok (hour * 3600, rest)
  | (true, rest) =>
    let (minute, rest) ← readPart .offsetMinute rest
    match timeSeparator extended rest with
    | (false, rest) => .ok (hour * 3600 + minute * 60, rest)
    | (true, rest) =>
      let (second, rest) ← readPart .offsetSecond rest
      let (fraction, rest) ← readFraction rest
      .ok (hour * 3600 + minute * 60 + second + (if fraction ≥ 500000000 then 1 else 0), rest)

/-- The offset from UTC in seconds, to the east, if the text goes on with one. -/
def readOffset (bytes : Bytes) : Reading (Option Int × Bytes) :=
  match bytes with
  | 0x5a :: rest => .ok (some 0, rest)
  | 0x7a :: rest => .ok (some 0, rest)
  | 0x2b :: rest => do
    let (n, rest) ← readOffsetParts rest
    .ok (some n, rest)
  | 0x2d :: rest => do
    let (n, rest) ← readOffsetParts rest
    .ok (some (-(n : Int)), rest)
  | _ => .ok (none, bytes)

/-- Drops annotations in brackets, which do not change an instant. -/
def skipAnnotations : (inside : Bool) → Bytes → Reading Bytes
  | true, [] => .error .unclosedBracket
  | true, b :: rest => skipAnnotations (b != 0x5d) rest
  | false, 0x5b :: rest => skipAnnotations true rest
  | false, bytes => .ok bytes

def lowest : Int := -377705023201

def highest : Int := 253402207200

def ofParts (days : Int) (time : TimeOfDay) (offset : Int) : Reading Timestamp :=
  let seconds := days * 86400 + time.seconds - offset
  if lowest ≤ seconds ∧ seconds ≤ highest then .ok ⟨seconds, time.nanoseconds⟩
  else .error (.overflow offset)

def opensTime (b : UInt8) : Bool :=
  b == 0x20 || b == 0x54 || b == 0x74

def read (text : String) : Reading Timestamp := do
  let bytes := Bytes.utf8 text
  let (days, rest) ← readDate bytes
  let (time, offset, rest) ←
    if rest.head?.any opensTime then do
      let (time, rest) ← readTime rest.tail
      let (offset, rest) ← readOffset rest
      pure (some time, offset, rest)
    else pure (none, none, rest)
  let rest ← skipAnnotations false rest
  if rest.isEmpty then
    match time, offset with
    | none, _ => .error .timeMissing
    | some _, none => .error .offsetMissing
    | some time, some offset => ofParts days time offset
  else .error (.unparsed (bytes.take (bytes.length - rest.length)) rest)

end Timestamp

end PodWebhook
