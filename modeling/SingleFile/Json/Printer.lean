import SingleFile.Json.Basic
import SingleFile.Json.Quoted

/-! # Writing JSON

The compact form: no blanks, members in their order. A string that is no text has no written form
of its own and is written empty.
-/

namespace SingleFile

private def digitChars (digits : List Nat) : List Char :=
  digits.map Nat.digitChar

def Exponent.render (exponent : Exponent) : List Char :=
  'e' :: ((if exponent.negative then ['-'] else []) ++ digitChars exponent.digits)

def Numeral.render (numeral : Numeral) : List Char :=
  (if numeral.negative then ['-'] else []) ++ digitChars numeral.whole ++
    (if numeral.fraction = [] then [] else '.' :: digitChars numeral.fraction) ++
    (numeral.exponent.map Exponent.render).getD []

namespace Json

def renderText (text : Option String) : List Char :=
  quote (text.getD "").toList

mutual

def render : Json → List Char
  | .null => ['n', 'u', 'l', 'l']
  | .bool true => ['t', 'r', 'u', 'e']
  | .bool false => ['f', 'a', 'l', 's', 'e']
  | .number numeral => numeral.render
  | .string text => renderText text
  | .array [] => ['[', ']']
  | .array (item :: items) => '[' :: (render item ++ renderItems items)
  | .object [] => ['{', '}']
  | .object ((name, value) :: members) =>
    '{' :: (renderText name ++ ':' :: (render value ++ renderMembers members))

/-- The items after the first, with the closing bracket. -/
def renderItems : List Json → List Char
  | [] => [']']
  | item :: items => ',' :: (render item ++ renderItems items)

/-- The members after the first, with the closing brace. -/
def renderMembers : List (Option String × Json) → List Char
  | [] => ['}']
  | (name, value) :: members =>
    ',' :: (renderText name ++ ':' :: (render value ++ renderMembers members))

end

end Json

end SingleFile
