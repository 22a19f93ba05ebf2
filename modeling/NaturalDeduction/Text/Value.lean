import NaturalDeduction.Text.Fraction
import NaturalDeduction.Text.Quoted

/-!
# Loose values

A caller may hand over something else than a text where a formula is expected, or something else
than an integer where a line is cited. Such a value is refused, but it is named in the refusal.

## Main definitions

* `Value`: null, truth values, integers, fractions, texts, lists and records
* `Value.kind`: the name of a value's kind
* `Value.quoted`: a value with the texts in it quoted
* `Value.display`: the same, except that a text is shown as it is
-/

namespace NaturalDeduction

inductive Value where
  | null
  | truth (b : Bool)
  | integer (i : Int)
  | fraction (x : Fraction)
  | text (s : String)
  | list (items : List Value)
  | record (keys : List String) (items : List Value)

namespace Value

def kind : Value → String
  | null => "NoneType"
  | truth _ => "bool"
  | integer _ => "int"
  | fraction _ => "float"
  | text _ => "str"
  | list _ => "list"
  | record .. => "dict"

mutual

/-- A value with the texts in it quoted. -/
def quoted : Value → String
  | null => "None"
  | truth b => if b then "True" else "False"
  | integer i => toString i
  | fraction x => x.text
  | text s => Text.quote s
  | list items => "[" ++ ", ".intercalate (quotedAll items) ++ "]"
  | record keys items => "\x7b" ++ ", ".intercalate (quotedFields keys items) ++ "\x7d"

def quotedAll : List Value → List String
  | [] => []
  | v :: vs => v.quoted :: quotedAll vs

def quotedFields : List String → List Value → List String
  | key :: keys, v :: vs => (Text.quote key ++ ": " ++ v.quoted) :: quotedFields keys vs
  | _, _ => []

end

def display : Value → String
  | text s => s
  | v => v.quoted

end Value

end NaturalDeduction
