import EntityQuery.Text.Unsigned

/-!
# Dates and times

A moment is a date, a time of day, or both with a T or a blank between them
and possibly an offset. Days are checked against the calendar; a minute may
have a leap second.
-/

namespace EntityQuery.Toml.Moment

open Text (digitsValue)

/-- Whether a year has a 29th of February. -/
def isLeapYear (year : Nat) : Bool := (year % 4 == 0 && year % 100 != 0) || year % 400 == 0

/-- The number of days of a month. -/
def daysOf (year month : Nat) : Nat :=
  if month = 2 then if isLeapYear year then 29 else 28
  else if month ∈ [4, 6, 9, 11] then 30
  else 31

/-- Whether characters are a date `YYYY-MM-DD` of the calendar. -/
def isDate : List Char → Bool
  | [y₁, y₂, y₃, y₄, '-', m₁, m₂, '-', d₁, d₂] =>
      let year := digitsValue [y₁, y₂, y₃, y₄]
      let month := digitsValue [m₁, m₂]
      let day := digitsValue [d₁, d₂]
      [y₁, y₂, y₃, y₄, m₁, m₂, d₁, d₂].all Char.isDigit &&
        1 ≤ month && month ≤ 12 && 1 ≤ day && day ≤ daysOf year month
  | _ => false

/-- Whether four characters are an hour and a minute. -/
def isHourMinute (h₁ h₂ m₁ m₂ : Char) : Bool :=
  [h₁, h₂, m₁, m₂].all Char.isDigit && digitsValue [h₁, h₂] ≤ 23 && digitsValue [m₁, m₂] ≤ 59

/-- Whether characters are a time offset: none, `Z`, or hours and minutes. -/
def isOffset : List Char → Bool
  | [] => true
  | ['Z'] | ['z'] => true
  | [sign, h₁, h₂, ':', m₁, m₂] => (sign == '+' || sign == '-') && isHourMinute h₁ h₂ m₁ m₂
  | _ => false

/-- Drop the fraction of a second, which has digits if it is there at all. -/
def afterFraction? : List Char → Option (List Char)
  | '.' :: rest =>
      if (rest.takeWhile Char.isDigit).isEmpty then none else some (rest.dropWhile Char.isDigit)
  | rest => some rest

/-- Drop the seconds, which may be missing, and their fraction. -/
def afterSeconds? : List Char → Option (List Char)
  | ':' :: s₁ :: s₂ :: rest =>
      if s₁.isDigit && s₂.isDigit && digitsValue [s₁, s₂] ≤ 60 then afterFraction? rest else none
  | ':' :: _ => none
  | rest => some rest

/-- What follows the time of day `HH:MM` or `HH:MM:SS` at the start of some
characters. -/
def afterTime? : List Char → Option (List Char)
  | h₁ :: h₂ :: ':' :: m₁ :: m₂ :: rest =>
      if isHourMinute h₁ h₂ m₁ m₂ then afterSeconds? rest else none
  | _ => none

/-- Whether characters are a date, a time of day, or both. Only a time that
belongs to a date has an offset. -/
def isMoment (chars : List Char) : Bool :=
  isDate chars || afterTime? chars == some [] ||
    (isDate (chars.take 10) &&
      match chars.drop 10 with
      | separator :: time =>
          (separator == 'T' || separator == 't' || separator == ' ') &&
            (afterTime? time).any isOffset
      | [] => false)

end EntityQuery.Toml.Moment
