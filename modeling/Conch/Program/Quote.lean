-- SUMMARY: How diagnostics show names: in quotes where needed, with bytes that cannot be shown escaped.
import Conch.Raw

/-!
# Names in diagnostics

Names are shown so that they could be typed again as one word. A plain name stands
as it is or in single quotes. Bytes that cannot be shown are written as escapes in
a `$'...'` part, and a name with apostrophes and nothing else special stands in
double quotes. In the older style all stands in single quotes with backslashes.
-/

namespace Conch

namespace Quote

/-- Whether a byte can be shown. -/
def isShown (c : Char) : Bool := ' ' ≤ c && c ≤ '~'

/-- The letter of the escape for a control character. -/
def controlLetter? (c : Char) : Option Char :=
  match c.toNat with
  | 7 => some 'a'
  | 8 => some 'b'
  | 9 => some 't'
  | 10 => some 'n'
  | 11 => some 'v'
  | 12 => some 'f'
  | 13 => some 'r'
  | _ => none

/-- Three octal digits. -/
def octal (n : Nat) : List Char :=
  [n / 64, n / 8 % 8, n % 8].map fun d => Char.ofNat (48 + d % 8)

/-- What follows the backslash in the escape for a character that cannot be shown. -/
def escape (c : Char) : List Char :=
  match controlLetter? c with
  | some letter => [letter]
  | none => if c.toNat = 0 then ['0'] else octal c.toNat

/-- Whether a character at a place in a word keeps the word from standing bare. -/
def needsQuotes (isFirst isAlone : Bool) (c : Char) : Bool :=
  !isShown c || "?\\ !\"$&()*;<=>[^`|'".toList.contains c ||
    (isFirst && (c = '#' || c = '~')) || (isAlone && (c = '\x7b' || c = '\x7d'))

/-- Whether a name can stand bare. -/
def isBare : List Char → Bool
  | [] => false
  | c :: cs => !needsQuotes true cs.isEmpty c && cs.all fun c => !needsQuotes false false c

/-- Whether a character means the same between double quotes. -/
def isTame (isFirst isAlone : Bool) (c : Char) : Bool :=
  c = '\'' || (isShown c && !needsQuotes isFirst isAlone c) || c = ' ' ||
    (isFirst && (c = '#' || c = '~')) || (isAlone && (c = '\x7b' || c = '\x7d'))

/-- The inside of single quotes. `escaping` tells whether an escaped part is open. -/
def inner (escaping : Bool) : List Char → List Char
  | [] => []
  | c :: cs =>
    if c = '\'' then "'\\''".toList ++ inner false cs
    else if isShown c then (if escaping then "''".toList else []) ++ c :: inner false cs
    else (if escaping then [] else "'$'".toList) ++ '\\' :: escape c ++ inner true cs

/-- A name in quotes. One with a single quote that ends in an escaped part begins as if such a part were
    open. -/
def always (name : Raw) : Raw :=
  let cs := name.toList
  let tame := match cs with
    | [] => true
    | c :: rest => isTame true rest.isEmpty c && rest.all (isTame false false)
  if cs.contains '\'' && tame then "\"" ++ name ++ "\""
  else
    let opens := cs.contains '\'' && !isShown (cs.getLastD ' ')
    "'" ++ String.ofList (inner opens cs) ++ "'"

/-- A name in quotes if it needs them. -/
def ifNeeded (name : Raw) : Raw :=
  let cs := name.toList
  if isBare cs && !cs.contains ':' then name else always name

/-- A name in quotes if it could not be typed as it is. -/
def asTyped (name : Raw) : Raw :=
  if isBare name.toList then name else always name

/-- A text in the older style. -/
def plain (text : Raw) : Raw :=
  "'" ++ String.ofList (text.toList.flatMap fun c =>
    if c = '\'' || c = '\\' then ['\\', c]
    else if isShown c then [c]
    else '\\' :: escape c) ++ "'"

end Quote

end Conch
