import Flom.Lib.Calendar
import Flom.Lib.Decimal

set_option autoImplicit false

namespace Strftime

open Calendar Decimal

/-- A time zone some quarters of an hour from UTC, the same all the year. -/
structure Zone where
  name : List Char
  quarters : Int
  near : -100 < quarters ∧ quarters < 100

def Zone.offset (zone : Zone) : Int := 900 * zone.quarters

structure BrokenTime where
  date : Date
  second : Int
  first : 0 ≤ second
  last : second < 86400

def localtime (zone : Zone) (sec : Int) : BrokenTime where
  date := Date.of ((sec + zone.offset) / 86400)
  second := (sec + zone.offset) % 86400
  first := by omega
  last := by omega

def mktime (zone : Zone) (time : BrokenTime) : Int :=
  time.date.number * 86400 + time.second - zone.offset

theorem mktime_localtime (zone : Zone) (sec : Int) : mktime zone (localtime zone sec) = sec := by
  simp only [mktime, localtime, number_of]
  omega

inductive Field where
  | date (field : DateField)
  | hour | hour12 | half | minute | second | epoch
deriving DecidableEq, Repr

def value (zone : Zone) (time : BrokenTime) : Field → Int
  | .date field => time.date.value field
  | .hour => time.second / 3600
  | .hour12 => (time.second / 3600 + 11) % 12 + 1
  | .half => time.second / 43200
  | .minute => time.second / 60 % 60
  | .second => time.second % 60
  | .epoch => mktime zone time

/-- The digits a number is written with; a field that grows takes more when it needs them. -/
def Field.digits : Field → Nat
  | .date .year | .date .isoYear => 4
  | .date .yearDay => 3
  | .date .weekday | .half | .epoch => 1
  | _ => 2

def Field.grows : Field → Bool
  | .date .year | .date .century | .date .isoYear | .epoch => true
  | _ => false

inductive Names where
  | weekday | shortWeekday | month | shortMonth | half
deriving DecidableEq, Repr

def weekdayNames : List (List Char) :=
  [['S', 'u', 'n', 'd', 'a', 'y'], ['M', 'o', 'n', 'd', 'a', 'y'],
    ['T', 'u', 'e', 's', 'd', 'a', 'y'],
    ['W', 'e', 'd', 'n', 'e', 's', 'd', 'a', 'y'], ['T', 'h', 'u', 'r', 's', 'd', 'a', 'y'],
    ['F', 'r', 'i', 'd', 'a', 'y'], ['S', 'a', 't', 'u', 'r', 'd', 'a', 'y']]

def monthNames : List (List Char) :=
  [['J', 'a', 'n', 'u', 'a', 'r', 'y'], ['F', 'e', 'b', 'r', 'u', 'a', 'r', 'y'],
    ['M', 'a', 'r', 'c', 'h'],
    ['A', 'p', 'r', 'i', 'l'], ['M', 'a', 'y'], ['J', 'u', 'n', 'e'], ['J', 'u', 'l', 'y'],
    ['A', 'u', 'g', 'u', 's', 't'], ['S', 'e', 'p', 't', 'e', 'm', 'b', 'e', 'r'],
    ['O', 'c', 't', 'o', 'b', 'e', 'r'], ['N', 'o', 'v', 'e', 'm', 'b', 'e', 'r'],
    ['D', 'e', 'c', 'e', 'm', 'b', 'e', 'r']]

def Names.texts : Names → List (List Char)
  | .weekday => weekdayNames
  | .shortWeekday => weekdayNames.map (List.take 3)
  | .month => monthNames
  | .shortMonth => monthNames.map (List.take 3)
  | .half => [['A', 'M'], ['P', 'M']]

def Names.field : Names → Field
  | .weekday | .shortWeekday => .date .weekday
  | .month | .shortMonth => .date .month
  | .half => .half

def Names.first : Names → Int
  | .month | .shortMonth => 1
  | _ => 0

-- `plus` puts a sign before a number that is too long.
def signedDecimal (plus : Bool) (least number : Nat) : List Char :=
  (if plus = true ∧ 10 ^ least ≤ number then ['+'] else []) ++ decimal least number

def blankDecimal (number : Nat) : List Char :=
  if number < 10 then ' ' :: decimal 1 number else decimal 2 number

inductive Spec where
  | plain (char : Char)
  | number (field : Field) (plus : Bool)
  | blankDay
  | isoWeekday
  | name (names : Names)
  | zoneName
  | zoneOffset
deriving DecidableEq, Repr

def Spec.field : Spec → Option Field
  | .number field _ => some field
  | .blankDay => some (.date .monthDay)
  | .isoWeekday => some (.date .weekday)
  | .name names => some names.field
  | .plain _ | .zoneName | .zoneOffset => none

def Spec.write (zone : Zone) (value : Int) : Spec → List Char
  | .plain char => [char]
  | .number field plus => signedDecimal plus field.digits value.toNat
  | .blankDay => blankDecimal value.toNat
  | .isoWeekday => decimal 1 ((value + 6) % 7 + 1).toNat
  | .name names => names.texts.getD (value - names.first).toNat []
  | .zoneName => zone.name
  | .zoneOffset =>
    (if zone.quarters < 0 then '-' else '+') ::
      (decimal 2 (zone.quarters.natAbs / 4) ++ decimal 2 (zone.quarters.natAbs % 4 * 15))

def Spec.text (zone : Zone) (time : BrokenTime) (spec : Spec) : List Char :=
  spec.write zone ((spec.field.map (value zone time)).getD 0)

def digits (field : Field) : Spec := .number field false

def hourMinute : List Spec := [digits .hour, .plain ':', digits .minute]

def clockTime : List Spec := hourMinute ++ [.plain ':', digits .second]

def slashDate : List Spec :=
  [digits (.date .month), .plain '/', digits (.date .monthDay), .plain '/',
    digits (.date .yearOfCentury)]

/-- The conversion specifiers, with the texts of the C locale. -/
def conversions : List (Char × List Spec) :=
  [('%', [.plain '%']), ('n', [.plain '\n']), ('t', [.plain '\t']),
    ('a', [.name .shortWeekday]), ('A', [.name .weekday]),
    ('b', [.name .shortMonth]), ('h', [.name .shortMonth]), ('B', [.name .month]),
    ('c', [.name .shortWeekday, .plain ' ', .name .shortMonth, .plain ' ', .blankDay, .plain ' '] ++
      clockTime ++ [.plain ' ', digits (.date .year)]),
    ('C', [digits (.date .century)]), ('d', [digits (.date .monthDay)]), ('D', slashDate),
      ('e', [.blankDay]),
    ('F', [.number (.date .year) true, .plain '-', digits (.date .month), .plain '-',
      digits (.date .monthDay)]),
    ('g', [digits (.date .isoYearOfCentury)]), ('G', [digits (.date .isoYear)]),
    ('H', [digits .hour]), ('I', [digits .hour12]), ('j', [digits (.date .yearDay)]),
    ('m', [digits (.date .month)]), ('M', [digits .minute]), ('p', [.name .half]),
    ('r', [digits .hour12, .plain ':', digits .minute, .plain ':', digits .second, .plain ' ',
      .name .half]),
    ('R', hourMinute), ('s', [digits .epoch]), ('S', [digits .second]), ('T', clockTime),
    ('u', [.isoWeekday]), ('U', [digits (.date .sundayWeek)]), ('V', [digits (.date .isoWeek)]),
    ('w', [digits (.date .weekday)]), ('W', [digits (.date .mondayWeek)]),
    ('x', slashDate), ('X', clockTime), ('y', [digits (.date .yearOfCentury)]),
      ('Y', [digits (.date .year)]),
    ('z', [.zoneOffset]), ('Z', [.zoneName])]

/-- The modifiers change nothing in the C locale. -/
def modifies (modifier char : Char) : Bool :=
  if modifier = 'E' then ['c', 'C', 'x', 'X', 'y', 'Y'].contains char
  else if modifier = 'O' then ['d', 'e', 'H', 'I', 'm', 'M', 'S', 'u', 'U', 'V', 'w', 'W',
    'y'].contains char
  else false

inductive Mode where
  | text
  | percent
  | modified (modifier : Char)

/-- A conversion that is not specified leaves no meaning to the format. -/
def specsFrom : Mode → List Char → Option (List Spec)
  | .text, [] => some []
  | .percent, [] | .modified _, [] => none
  | .text, char :: rest =>
    if char = '%' then specsFrom .percent rest else (specsFrom .text rest).map (.plain char :: ·)
  | .percent, char :: rest =>
    if char = 'E' ∨ char = 'O' then specsFrom (.modified char) rest
    else (conversions.lookup char).bind fun front => (specsFrom .text rest).map (front ++ ·)
  | .modified modifier, char :: rest =>
    if modifies modifier char then
      (conversions.lookup char).bind fun front => (specsFrom .text rest).map (front ++ ·)
    else none

def specs (format : List Char) : Option (List Spec) := specsFrom .text format

def strftime (zone : Zone) (format : List Char) (sec : Int) : List Char :=
  ((specs format).getD []).flatMap (Spec.text zone (localtime zone sec))

def shows (format : List Char) (field : Field) : Bool :=
  ((specs format).getD []).any fun spec => spec.field = some field

example : strftime ⟨['I', 'S', 'T'], 22, by decide⟩ ['%', 'c', ' ', '%', 'z'] 1700000000 =
    "Wed Nov 15 03:43:20 2023 +0530".toList := by
  decide

end Strftime
