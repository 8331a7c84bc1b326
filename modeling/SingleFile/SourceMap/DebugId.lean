import SingleFile.Json.Quoted

/-! # Debug identifiers

A debug identifier is a UUID or a time stamp of eight hexadecimal digits, with a number appended
that counts builds. Hyphens separate the groups or are left out altogether.
-/

namespace SingleFile

inductive DebugId where
  | uuid (value appendix : Nat)
  | stamp (value appendix : Nat)
deriving DecidableEq

namespace DebugId

/-- The value of a text of hexadecimal digits, none if it is empty or holds anything else. -/
def hex? (digits : List Char) : Option Nat :=
  if digits = [] then none
  else digits.foldlM (fun value c => (Json.hexValue? c).map (value * 16 + ·)) 0

/-- A number in hexadecimal, which may have a plus sign. -/
def number? : List Char → Option Nat
  | '+' :: digits => hex? digits
  | digits => hex? digits

/-- The digits of a hyphenated UUID, its hyphens left out. -/
def uuidDigits? (text : List Char) : Option (List Char) :=
  let hyphens := [8, 13, 18, 23]
  if hyphens.all fun place => text[place]? = some '-' then
    some (text.take 8 ++ (text.drop 9).take 4 ++ (text.drop 14).take 4 ++ (text.drop 19).take 4 ++
      (text.drop 24).take 12)
  else none

/-- The appendix behind a UUID: nothing, or up to eight digits; further characters are ignored. -/
def appendix? (hyphenated : Bool) (text : List Char) : Option Nat :=
  match text, hyphenated with
  | [], _ => some 0
  | '-' :: digits, true => number? (digits.take 8)
  | '-' :: _, false => none
  | _, true => none
  | digits, false => number? (digits.take 8)

def parse? (text : List Char) : Option DebugId :=
  let hyphenated : Bool := text[8]? = some '-'
  let (least, greatest) := if hyphenated then (10, 17) else (9, 16)
  if !text.all fun c => c.toNat < 128 then none
  else if least ≤ text.length ∧ text.length ≤ greatest then do
    let stamp ← number? (text.take 8)
    let appendix ← number? (text.drop (if hyphenated then 9 else 8))
    some (.stamp stamp appendix)
  else do
    let size := if hyphenated then 36 else 32
    if text.length < size then none
    let digits ← if hyphenated then uuidDigits? (text.take size) else some (text.take size)
    let uuid ← hex? digits
    let appendix ← appendix? hyphenated (text.drop size)
    some (.uuid uuid appendix)

/-- The lowest digits of a number in hexadecimal, as many as asked for. -/
def hexDigits : Nat → Nat → List Char
  | 0, _ => []
  | count + 1, value => hexDigits count (value / 16) ++ [Nat.digitChar (value % 16)]

def renderAppendix (appendix : Nat) : List Char :=
  if appendix = 0 then [] else '-' :: Nat.toDigits 16 appendix

/-- A UUID in lower case with hyphens, a time stamp in upper case; no appendix is written for
zero. -/
def render : DebugId → List Char
  | .uuid value appendix =>
    let digits := hexDigits 32 value
    digits.take 8 ++ '-' :: (digits.drop 8).take 4 ++ '-' :: (digits.drop 12).take 4 ++
      '-' :: (digits.drop 16).take 4 ++ '-' :: digits.drop 20 ++ renderAppendix appendix
  | .stamp value appendix => (hexDigits 8 value).map Char.toUpper ++ renderAppendix appendix

end DebugId

end SingleFile
