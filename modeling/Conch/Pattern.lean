-- SUMMARY: Patterns on texts of bytes, and where they match.
import Conch.Bytes

/-!
# Patterns

A pattern matches a stretch of a text. Among the matches the one that starts first
is taken, and of those the longest. What the groups of a pattern have matched
follows from going through the text greedily, such that the longest match comes
out.

Where a pattern can match is found for many places at once: `ends` takes the places
at which it may start to those at which it may end. A pattern that refers back to
what a group has matched is gone through place by place instead.
-/

namespace Conch

/-- A set of bytes, as a table of which are in it. -/
structure ByteSet where
  table : Array Bool
  deriving DecidableEq, Repr, Inhabited

namespace ByteSet

/-- The bytes that a test accepts. -/
def ofTest (test : UInt8 → Bool) : ByteSet :=
  ⟨((List.range 256).map fun n => test n.toUInt8).toArray⟩

/-- The bytes of a list. -/
def ofList (bytes : List UInt8) : ByteSet := ofTest fun b => bytes.contains b

/-- Whether a byte is in the set. -/
def has (s : ByteSet) (b : UInt8) : Bool := s.table.getD b.toNat false

/-- A letter in the other case. -/
def otherCase (b : UInt8) : UInt8 :=
  if 65 ≤ b && b ≤ 90 then b + 32 else if 97 ≤ b && b ≤ 122 then b - 32 else b

/-- The set with both cases of all its letters. -/
def folded (s : ByteSet) : ByteSet := ofTest fun b => s.has b || s.has (otherCase b)

/-- All bytes that are not in the set. -/
def complement (s : ByteSet) : ByteSet := ofTest fun b => !s.has b

/-- The bytes of words. -/
def isWordByte (b : UInt8) : Bool :=
  (48 ≤ b && b ≤ 57) || (65 ≤ b && b ≤ 90) || b = 95 || (97 ≤ b && b ≤ 122)

/-- The bytes of a class. -/
def class? (name : String) : Option (UInt8 → Bool) :=
  let upper := fun (b : UInt8) => (65 ≤ b && b ≤ 90 : Bool)
  let lower := fun (b : UInt8) => (97 ≤ b && b ≤ 122 : Bool)
  let digit := fun (b : UInt8) => (48 ≤ b && b ≤ 57 : Bool)
  let graph := fun (b : UInt8) => (33 ≤ b && b ≤ 126 : Bool)
  match name with
  | "alnum" => some fun b => upper b || lower b || digit b
  | "alpha" => some fun b => upper b || lower b
  | "blank" => some fun b => b = 32 || b = 9
  | "cntrl" => some fun b => b < 32 || b = 127
  | "digit" => some digit
  | "graph" => some graph
  | "lower" => some lower
  | "print" => some fun b => b = 32 || graph b
  | "punct" => some fun b => graph b && !(upper b || lower b || digit b)
  | "space" => some fun b => b = 32 || (9 ≤ b && b ≤ 13)
  | "upper" => some upper
  | "xdigit" => some fun b => digit b || (65 ≤ b && b ≤ 70) || (97 ≤ b && b ≤ 102)
  | _ => none

end ByteSet

/-- A place between bytes that a pattern can ask for. -/
inductive Edge where
  | lineStart
  | lineEnd
  | textStart
  | textEnd
  | wordStart
  | wordEnd
  /-- The start or the end of a word. -/
  | wordEdge
  | notWordEdge
  deriving DecidableEq, Repr

/-- A pattern on texts. -/
inductive Pattern where
  | empty
  /-- One byte out of a set. -/
  | one (s : ByteSet)
  | append (first second : Pattern)
  | either (first second : Pattern)
  | times (p : Pattern) (least : Nat) (most : Option Nat)
  | edge (e : Edge)
  | group (i : Nat) (p : Pattern)
  /-- What a group has matched, once more. -/
  | again (i : Nat) (fold : Bool)
  deriving Repr, Inhabited

namespace Pattern

/-- A text in which a pattern is looked for. -/
structure Subject where
  text : Array UInt8
  /-- Lines start and end within the text. -/
  hasLines : Bool := false

namespace Subject

/-- The length of the text. -/
def size (s : Subject) : Nat := s.text.size

/-- Whether a byte of a word stands before or at a place. -/
def isWordAt (s : Subject) (i : Nat) : Bool :=
  match s.text[i]? with
  | some b => ByteSet.isWordByte b
  | none => false

/-- Whether a place is of a kind. -/
def isAt (s : Subject) (e : Edge) (i : Nat) : Bool :=
  let before := 0 < i && s.isWordAt (i - 1)
  let after := s.isWordAt i
  match e with
  | .lineStart => i = 0 || (s.hasLines && s.text[i - 1]? = some 10)
  | .lineEnd => i = s.size || (s.hasLines && s.text[i]? = some 10)
  | .textStart => i = 0
  | .textEnd => i = s.size
  | .wordStart => !before && after
  | .wordEnd => before && !after
  | .wordEdge => before != after
  | .notWordEdge => before == after

/-- A stretch of the text. -/
def slice (s : Subject) (start stop : Nat) : Bytes := (s.text.extract start stop).toList

end Subject

/-! ## Where matches end -/

/-- The places of two lists in order, each once. -/
def union : List Nat → List Nat → List Nat
  | [], bs => bs
  | as, [] => as
  | a :: as, b :: bs =>
    if a < b then a :: union as (b :: bs)
    else if b < a then b :: union (a :: as) bs
    else a :: union as bs

/-- The places of the first list that are not in the second; both are in order. -/
def without : List Nat → List Nat → List Nat
  | [], _ => []
  | as, [] => as
  | a :: as, b :: bs =>
    if a < b then a :: without as (b :: bs)
    else if b < a then without (a :: as) bs
    else without as bs

/-- The places after one byte out of a set. -/
def afterOne (s : Subject) (set : ByteSet) (starts : List Nat) : List Nat :=
  starts.filterMap fun i =>
    match s.text[i]? with
    | some b => if set.has b then some (i + 1) else none
    | none => none

/-- The places after any number of bytes out of a set, going from a place on with the starts that
    are not behind it. `alive` tells whether the bytes before lead here. -/
def afterMany (s : Subject) (set : ByteSet) : Nat → Nat → Bool → List Nat → List Nat
  | 0, _, _, starts => starts
  | fuel + 1, i, alive, starts =>
    let (isStart, rest) := match starts with
      | p :: ps => if p = i then (true, ps) else (false, p :: ps)
      | [] => (false, [])
    if !alive && !isStart then
      match rest with
      | [] => []
      | p :: _ => afterMany s set fuel p false rest
    else
      match s.text[i]? with
      | some b => i :: afterMany s set fuel (i + 1) (set.has b) rest
      | none => [i]

/-- Take a step as often as it leads to new places, at most so often. -/
def closure (step : List Nat → List Nat) : Nat → Option Nat → List Nat → List Nat → List Nat
  | 0, _, all, _ => all
  | fuel + 1, most, all, fresh =>
    if most = some 0 || fresh.isEmpty then all
    else
      let next := without (step fresh) all
      closure step fuel (most.map (· - 1)) (union all next) next

/-- Take a step so often. -/
def stepTimes (step : List Nat → List Nat) : Nat → List Nat → List Nat
  | 0, places => places
  | n + 1, places => if places.isEmpty then [] else stepTimes step n (step places)

/-- The places where a match from one of some places can end, in order. A reference back to a group
    leads nowhere here. -/
def ends (s : Subject) : Pattern → List Nat → List Nat
  | empty, starts => starts
  | one set, starts => afterOne s set starts
  | append first second, starts => ends s second (ends s first starts)
  | either first second, starts => union (ends s first starts) (ends s second starts)
  | times (one set) 0 none, starts => afterMany s set (2 * s.size + 2) (starts.headD 0) false starts
  | times body least most, starts =>
    let required := stepTimes (ends s body) least starts
    closure (ends s body) (s.size + 1) (most.map (· - least)) required required
  | edge e, starts => starts.filter (s.isAt e)
  | group _ body, starts => ends s body starts
  | again _ _, _ => []

/-! ## Groups -/

/-- What groups have matched, the latest first. -/
abbrev Groups := List (Nat × Nat × Nat)

/-- How to go on from a place. -/
abbrev Onward := Nat → Groups → Option Groups

/-- Repeat a step greedily. `fuel` bounds how often. -/
def walkTimes (step : Nat → Groups → Onward → Option Groups) :
    Nat → Nat → Option Nat → Nat → Groups → Onward → Option Groups
  | 0, least, _, i, groups, onward => if least = 0 then onward i groups else none
  | fuel + 1, least, most, i, groups, onward =>
    let more :=
      if most = some 0 then none
      else
        step i groups fun j groups =>
          if j = i && least = 0 then none
          else walkTimes step fuel (least - 1) (most.map (· - 1)) j groups onward
    match more with
    | some found => some found
    | none => if least = 0 then onward i groups else none

/-- Whether two stretches of a text are the same. -/
def areEqual (s : Subject) (fold : Bool) (i j length : Nat) : Bool :=
  (List.range length).all fun k =>
    match s.text[i + k]?, s.text[j + k]? with
    | some a, some b => a = b || (fold && a = ByteSet.otherCase b)
    | _, _ => false

/-- Go through a pattern greedily from a place. -/
def walk (s : Subject) : Pattern → Nat → Groups → Onward → Option Groups
  | empty, i, groups, onward => onward i groups
  | one set, i, groups, onward =>
    match s.text[i]? with
    | some b => if set.has b then onward (i + 1) groups else none
    | none => none
  | append first second, i, groups, onward =>
    walk s first i groups fun j groups => walk s second j groups onward
  | either first second, i, groups, onward =>
    match walk s first i groups onward with
    | some found => some found
    | none => walk s second i groups onward
  | times body least most, i, groups, onward =>
    walkTimes (walk s body) (s.size + least + 1) least most i groups onward
  | edge e, i, groups, onward => if s.isAt e i then onward i groups else none
  | group n body, i, groups, onward => walk s body i groups fun j groups => onward j ((n, i, j) :: groups)
  | again n fold, i, groups, onward =>
    match groups.lookup n with
    | some (start, stop) =>
      if areEqual s fold start i (stop - start) then onward (i + (stop - start)) groups else none
    | none => none

/-- What the groups match if the whole goes from one place to another. -/
def groupsOf? (s : Subject) (p : Pattern) (start stop : Nat) : Option Groups :=
  walk s p start [] fun j groups => if j = stop then some groups else none

/-! ## Searching -/

/-- Whether a pattern refers back to a group. -/
def refersBack : Pattern → Bool
  | append first second | either first second => refersBack first || refersBack second
  | times p _ _ | group _ p => refersBack p
  | again _ _ => true
  | _ => false

/-- The end of the longest match from a place, among the places up to a bound. -/
def walkLongest? (s : Subject) (p : Pattern) (start : Nat) : Nat → Option Nat
  | 0 => none
  | n + 1 =>
    if start ≤ n && (groupsOf? s p start n).isSome then some n else walkLongest? s p start n

/-- All places where a match from a place can end, in order. -/
def endsFrom (s : Subject) (p : Pattern) (start : Nat) : List Nat :=
  if p.refersBack then
    ((List.range (s.size + 1 - start)).map (start + ·)).filter fun stop => (groupsOf? s p start stop).isSome
  else ends s p [start]

/-- The end of the longest match from a place. -/
def longest? (s : Subject) (p : Pattern) (start : Nat) : Option Nat :=
  if p.refersBack then walkLongest? s p start (s.size + 1) else (ends s p [start]).getLast?

/-- A stretch of a text that was matched. -/
structure Found where
  start : Nat
  stop : Nat
  deriving DecidableEq, Repr

/-- The bytes that a match can begin with; none if it can be empty or begin with any. -/
def firstBytes? : Pattern → Option ByteSet
  | one s => some s
  | append first second =>
    match first with
    | edge _ => firstBytes? second
    | _ => firstBytes? first
  | either first second =>
    match firstBytes? first, firstBytes? second with
    | some a, some b => some (.ofTest fun c => a.has c || b.has c)
    | _, _ => none
  | times p least _ => if least = 0 then none else firstBytes? p
  | group _ p => firstBytes? p
  | _ => none

/-- The first match that starts at one of the next so many places. -/
def searchFrom (s : Subject) (p : Pattern) (first : Option ByteSet) : Nat → Nat → Option Found
  | 0, _ => none
  | n + 1, i =>
    let isPossible := match first with
      | some set =>
        match s.text[i]? with
        | some b => set.has b
        | none => false
      | none => true
    if !isPossible then searchFrom s p first n (i + 1)
    else
      match longest? s p i with
      | some stop => some ⟨i, stop⟩
      | none => searchFrom s p first n (i + 1)

/-- The first match at or after a place. -/
def search (s : Subject) (p : Pattern) (start : Nat) : Option Found :=
  let count := s.size + 1 - start
  if p.refersBack then searchFrom s p p.firstBytes? count start
  else if (ends s p ((List.range count).map (start + ·))).isEmpty then none
  else searchFrom s p p.firstBytes? count start

/-- Whether a text has a match. -/
def matchesIn (s : Subject) (p : Pattern) : Bool :=
  if p.refersBack then (search s p 0).isSome
  else !(ends s p (List.range (s.size + 1))).isEmpty

/-- Whether a pattern matches a whole text. -/
def matchesAll (s : Subject) (p : Pattern) : Bool :=
  if p.refersBack then (groupsOf? s p 0 s.size).isSome
  else (ends s p [0]).getLast? = some s.size

/-- The pattern for some bytes as they are. -/
def literal (fold : Bool) (bytes : Bytes) : Pattern :=
  let set := fun b => let s := ByteSet.ofList [b]; if fold then s.folded else s
  bytes.foldr (fun b p => append (one (set b)) p) empty

end Pattern

end Conch
