import Multicall.Text.Ascii
/-!
Moments: a date, a time of day, or both with or without an offset. What counts as a date and as a
time is a matter of rules; a moment has one text, whatever it was read from.
-/
namespace Multicall.Toml

structure MomentRules where
  lastDay : Nat → Nat → Nat
  lastHour : Nat
  lastSecond : Nat
  lastOffsetHour : Nat
  lastOffsetMinute : Nat
  /-- Whether an offset loses its minus sign when its hours alone are zero. -/
  signFollowsHours : Bool

def isLeapYear (y : Nat) : Bool := y % 4 == 0 && (y % 100 != 0 || y % 400 == 0)

def daysIn (year month : Nat) : Nat :=
  match month with
  | 2 => if isLeapYear year then 29 else 28
  | 4 | 6 | 9 | 11 => 30
  | _ => 31

def MomentRules.calendar : MomentRules where
  lastDay := daysIn
  lastHour := 23
  lastSecond := 60
  lastOffsetHour := 23
  lastOffsetMinute := 59
  signFollowsHours := false

/-- Rules that look at each number alone, and at an offset not at all. -/
def MomentRules.lenient : MomentRules where
  lastDay _ _ := 31
  lastHour := 24
  lastSecond := 59
  lastOffsetHour := 99
  lastOffsetMinute := 99
  signFollowsHours := true

def twoDigits? (a b : Char) : Option Nat :=
  if a.isDigit && b.isDigit then some (Ascii.digitsValue [a, b]) else none

/-- The fraction of a second as it is kept: at most nine digits, no zeros at the end. -/
def fractionText (ds : List Char) : List Char :=
  let kept := ((ds.take 9).reverse.dropWhile (· == '0')).reverse
  if kept.isEmpty then [] else '.' :: kept

namespace MomentRules

def date? (rules : MomentRules) : List Char → Option (List Char × List Char)
  | y1 :: y2 :: y3 :: y4 :: '-' :: m1 :: m2 :: '-' :: d1 :: d2 :: rest => do
      let century ← twoDigits? y1 y2
      let year ← twoDigits? y3 y4
      let month ← twoDigits? m1 m2
      let day ← twoDigits? d1 d2
      let last := rules.lastDay (100 * century + year) month
      if 1 ≤ month ∧ month ≤ 12 ∧ 1 ≤ day ∧ day ≤ last then
        some ([y1, y2, y3, y4, '-', m1, m2, '-', d1, d2], rest)
      else none
  | _ => none

def time? (rules : MomentRules) : List Char → Option (List Char × List Char)
  | h1 :: h2 :: ':' :: m1 :: m2 :: ':' :: s1 :: s2 :: rest => do
      let hour ← twoDigits? h1 h2
      let minute ← twoDigits? m1 m2
      let second ← twoDigits? s1 s2
      if hour ≤ rules.lastHour ∧ minute ≤ 59 ∧ second ≤ rules.lastSecond then
        let clock := [h1, h2, ':', m1, m2, ':', s1, s2]
        match rest with
        | '.' :: more =>
            let ds := more.takeWhile Char.isDigit
            if ds.isEmpty then none
            else some (clock ++ fractionText ds, more.dropWhile Char.isDigit)
        | _ => some (clock, rest)
      else none
  | _ => none

def offset? (rules : MomentRules) : List Char → Option (List Char)
  | [] => some []
  | ['Z'] | ['z'] => some ['Z']
  | [sign, h1, h2, ':', m1, m2] => do
      let hour ← twoDigits? h1 h2
      let minute ← twoDigits? m1 m2
      if (sign == '+' || sign == '-') && hour ≤ rules.lastOffsetHour &&
          minute ≤ rules.lastOffsetMinute then
        let zero := hour == 0 && (rules.signFollowsHours || minute == 0)
        some [if zero then '+' else sign, h1, h2, ':', m1, m2]
      else none
  | _ => none

def moment? (rules : MomentRules) (cs : List Char) : Option String :=
  match rules.date? cs with
  | some (date, []) => some (String.ofList date)
  | some (date, mark :: rest) => do
      if mark == 'T' || mark == 't' || mark == ' ' then
        let (time, rest) ← rules.time? rest
        let offset ← rules.offset? rest
        some (String.ofList (date ++ 'T' :: time ++ offset))
      else none
  | none =>
      match rules.time? cs with
      | some (time, []) => some (String.ofList time)
      | _ => none

end MomentRules
end Multicall.Toml
