import SearchWire.Number.Numeral
import SearchWire.Schema.Model
import SearchWire.Value.Dump

/-!
# Fitting data to a shape

A value fits a shape as it is, or it is brought into the shape: texts become numbers, whole
numbers become durations, data becomes a record. What does not fit is refused with all its
issues.

* `check`: the value that a shape makes of a value, or the issues.
* `Catalogue.build`: a record of a model from named arguments.
* `Catalogue.assume`: the same without any check.
* `assign`: another value for a property of a record.

How close the value was to the shape decides which alternative of a union is taken: `Closeness`
tells a value that was right from one that had to be changed, and for records the count of
properties that were given comes first.
-/

namespace SearchWire

/-- How close a value was to its shape. -/
inductive Closeness where
  | loose
  | strict
  | exact
  deriving DecidableEq, Repr

namespace Closeness

def rank : Closeness → Nat
  | loose => 0
  | strict => 1
  | exact => 2

/-- The less close of two. -/
def meet (a b : Closeness) : Closeness := if a.rank ≤ b.rank then a else b

end Closeness

/-- A value that fits, how close it was, and for records the count of properties given. -/
structure Accepted where
  value : Value
  closeness : Closeness
  given : Option Nat

abbrev Verdict := Except (List Issue) Accepted

namespace Verdict

def exact (v : Value) : Verdict := .ok ⟨v, .exact, none⟩
def strict (v : Value) : Verdict := .ok ⟨v, .strict, none⟩
def loose (v : Value) : Verdict := .ok ⟨v, .loose, none⟩
def refuse (k : Issue.Kind) : Verdict := .error [⟨[], k⟩]

def under (step : Place) (r : Verdict) : Verdict := r.mapError (issuesUnder step)

end Verdict

open Verdict

/-- The text that a text, a member or bytes hold. -/
def heldText? : Value → Option String
  | .str s => some s
  | .member m => some m.value
  | .bytes s => some s
  | _ => none

def checkText : Value → Verdict
  | .str s => exact (.str s)
  | .member m => strict (.str m.value)
  | .bytes s => loose (.str s)
  | _ => refuse .textType

/-- The value is within the bounds; the upper one is looked at first. -/
def bounded (low high : Option Int) (v : Value) (atLeast atMost : Int → Bool) (r : Verdict) :
    Verdict := do
  let a ← r
  if (high.map atMost).getD true then
    if (low.map atLeast).getD true then .ok { a with value := v }
    else refuse .atLeast
  else refuse .atMost

/-- The integer that a value is or can be brought to. -/
def wholeOf : Value → Except Issue.Kind (Int × Closeness)
  | .int n => .ok (n, .exact)
  | .bool b => .ok (if b then 1 else 0, .loose)
  | .float x =>
    match x.toInt? with
    | some n => .ok (n, .loose)
    | none => .error (if x.isFinite then .integerFromFraction else .finiteNumber)
  | v =>
    match heldText? v with
    | some s =>
      if Numeral.maxLength < (Text.trimBlanks s.toList).length then .error .integerLength
      else
        match Numeral.wholeNumber? s with
        | some n => .ok (n, .loose)
        | none => .error .integerParsing
    | none => .error .integerType

def checkWhole (low high : Option Int) (v : Value) : Verdict :=
  match wholeOf v with
  | .error k => refuse k
  | .ok (n, c) =>
    bounded low high (.int n) (fun l => l ≤ n) (fun h => n ≤ h) (.ok ⟨.int n, c, none⟩)

/-- The floating-point number that a value is or can be brought to. -/
def decimalOf : Value → Except Issue.Kind (Double × Closeness)
  | .float x => .ok (x, .exact)
  | .int n =>
    let x := Double.ofInt n
    if x.isFinite then .ok (x, .strict) else .error .numberType
  | .bool b => .ok (Double.ofInt (if b then 1 else 0), .loose)
  | v =>
    match heldText? v with
    | some s =>
      match Numeral.double? s with
      | some x => .ok (x, .loose)
      | none => .error .numberParsing
    | none => .error .numberType

def checkDecimal (low high : Option Int) (v : Value) : Verdict :=
  match decimalOf v with
  | .error k => refuse k
  | .ok (x, c) =>
    bounded low high (.float x) (fun l => x.atLeast l) (fun h => x.atMost h)
      (.ok ⟨.float x, c, none⟩)

/-- The words for the two truth values, in whatever case. -/
def flagOfWord? (s : String) : Option Bool :=
  let word := String.ofList (s.toList.map Char.toLower)
  if ["0", "off", "f", "false", "n", "no"].contains word then some false
  else if ["1", "on", "t", "true", "y", "yes"].contains word then some true
  else none

def checkFlag : Value → Verdict
  | .bool b => exact (.bool b)
  | .int n =>
    if n = 0 then loose (.bool false) else if n = 1 then loose (.bool true)
    else refuse .flagParsing
  | .float x =>
    match x.toInt? with
    | some n =>
      if n = 0 then loose (.bool false) else if n = 1 then loose (.bool true)
      else refuse .flagParsing
    | none => refuse .flagType
  | v =>
    match heldText? v with
    | some s =>
      match flagOfWord? s with
      | some b => loose (.bool b)
      | none => refuse .flagParsing
    | none => refuse .flagType

/-- A duration, or a number of seconds. -/
def checkDuration : Value → Verdict
  | .duration d => exact (.duration d)
  | .int n => ofOption (Duration.ofSeconds? n)
  | .bool b => ofOption (Duration.ofSeconds? (if b then 1 else 0))
  | .float x => ofOption (Duration.ofDouble? x)
  | v => refuse (if (heldText? v).isSome then .durationParsing else .durationType)
where
  ofOption : Option Duration → Verdict
    | some d => loose (.duration d)
    | none => refuse .durationParsing

/-- A date; a date-time at the start of a day counts as one. -/
def checkDate : Value → Verdict
  | .date d => exact (.date d)
  | .datetime t => if t.isMidnight then loose (.date t.date) else refuse .dateInexact
  | v =>
    match heldText? v with
    | some s =>
      match Date.ofText? s, DateTime.ofText? s with
      | some d, _ => loose (.date d)
      | none, some t => if t.isMidnight then loose (.date t.date) else refuse .dateInexact
      | none, none => refuse .dateParsing
    | none => refuse .dateType

/-- A date-time; a date counts as the start of its day. -/
def checkDateTime : Value → Verdict
  | .datetime t => exact (.datetime t)
  | .date d => loose (.datetime (.midnight d))
  | v =>
    match heldText? v with
    | some s =>
      match DateTime.ofText? s, Date.ofText? s with
      | some t, _ => loose (.datetime t)
      | none, some d => loose (.datetime (.midnight d))
      | none, none => refuse .datetimeParsing
    | none => refuse .datetimeType

/-- One of several values: texts, truth values and integers only if they are just these. -/
def checkChoice (values : List Value) (v : Value) : Verdict :=
  if values.any fun w =>
      match v, w with
      | .str s, .str t => s == t
      | .int n, .int m => n == m
      | .bool b, .bool c => b == c
      | .null, .null => true
      | _, _ => false
  then exact v else refuse .choice

/-- A member of an enumeration, or the text that one stands for. -/
def checkMember (cat : Catalogue) (enumeration : String) (v : Value) : Verdict :=
  match v with
  | .member m =>
    if m.enumeration = enumeration then
      match cat.member? enumeration m.value with
      | some _ => exact v
      | none => refuse .enumeration
    else ofText m.value
  | v =>
    match heldText? v with
    | some s => ofText s
    | none => refuse .enumeration
where
  ofText (s : String) : Verdict :=
    match cat.member? enumeration s with
    | some m => loose (.member m)
    | none => refuse .enumeration

/-- What checks the parts of a value: for a collection each item, for a dictionary each key and
value. -/
structure Parts where
  items : List (Shape → Verdict)
  entries : List (Value × (Shape → Verdict) × (Shape → Verdict))

def noParts : Parts := ⟨[], []⟩

/-- The results of the parts of a value: all values, or all issues in order. -/
def gather : List Verdict → Except (List Issue) (List Accepted)
  | [] => .ok []
  | r :: rs =>
    match r, gather rs with
    | .ok a, .ok as => .ok (a :: as)
    | .ok _, .error is => .error is
    | .error is, .ok _ => .error is
    | .error is, .error js => .error (is ++ js)

/-- The counts of properties given, added up. -/
def addGiven (a b : Option Nat) : Option Nat :=
  match a, b with
  | some n, some m => some (n + m)
  | some n, none => some n
  | none, m => m

/-- The closeness of a whole with the given parts. -/
def overall (c : Closeness) (as : List Accepted) : Closeness :=
  as.foldl (fun c a => c.meet a.closeness) c

def totalGiven (as : List Accepted) : Option Nat :=
  as.foldl (fun n a => addGiven n a.given) none

/-- Puts a place in front of each result, counted from `n` on. -/
def placed (n : Nat) : List Verdict → List Verdict
  | [] => []
  | r :: rs => r.under (.position n) :: placed (n + 1) rs

def SequenceKind.refusal : SequenceKind → Issue.Kind
  | .list => .listType
  | .tuple => .tupleType
  | .set => .setType
  | .frozenset => .frozenSetType

/-- A collection of a kind from its items. -/
def SequenceKind.make : SequenceKind → List Value → Value
  | .list, xs => .list xs
  | .tuple, xs => .tuple xs
  | .set, xs => Value.setOf xs
  | .frozenset, xs => Value.setOf xs

/-- How close a collection is to one of a kind. -/
def SequenceKind.closeness : SequenceKind → Value → Closeness
  | .list, .list _ => .exact
  | .tuple, .tuple _ => .exact
  | .set, .set _ => .exact
  | .frozenset, .set _ => .exact
  | _, _ => .loose

/-- A list, tuple or set as a collection of a kind. -/
def checkSequence (kind : SequenceKind) (item : Shape) (least : Nat) (v : Value) (parts : Parts) :
    Verdict :=
  match v.collection? with
  | none => refuse kind.refusal
  | some _ => do
    let as ← gather (placed 0 (parts.items.map fun check => check item))
    if as.length < least then refuse .tooShort
    else .ok ⟨kind.make (as.map Accepted.value), overall (kind.closeness v) as, totalGiven as⟩

/-- The place of an entry of a dictionary: texts stand for themselves, whole numbers of 64 bits
are positions, other keys are shown as in messages. -/
def keyPlace (k : Value) : Place :=
  match k with
  | .str s => .name s
  | .member m => .name m.value
  | .bool b => .position (if b then 1 else 0)
  | .int n => if -Int.pow 2 63 ≤ n ∧ n < Int.pow 2 63 then .position n else .name k.shown
  | _ => .name k.shown

/-- A dictionary, key and value of each entry. -/
def checkMapping (key value : Shape) (v : Value) (parts : Parts) : Verdict :=
  match v with
  | .dict _ => do
    let pairs := parts.entries.map fun (k, checkKey, checkValue) =>
      (((checkKey key).under (.name "[key]")).under (keyPlace k),
        (checkValue value).under (keyPlace k))
    let as ← gather (pairs.flatMap fun p => [p.1, p.2])
    .ok ⟨entriesOf as, overall .exact as, totalGiven as⟩
  | _ => refuse .dictType
where
  /-- Keys and values alternate. -/
  entriesOf (as : List Accepted) : Value := Value.dictOf (pairUp (as.map Accepted.value))
  pairUp : List Value → List (Value × Value)
    | k :: v :: rest => (k, v) :: pairUp rest
    | _ => []

/-- What checks the value that data gives under one of some names, with the name it is under. -/
def findGiven (keys : List String) (parts : Parts) : Option (String × (Shape → Verdict)) :=
  keys.findSome? fun key =>
    (parts.entries.find? fun e => e.1.text? == some key).map fun e => (key, e.2.2)

/-- A property from data: its value and whether it was given. -/
def checkProperty (p : Property) (parts : Parts) : Verdict :=
  match findGiven p.keys parts with
  | some (key, check) => (check p.shape).under (.name key)
  | none =>
    match p.default with
    | some v => exact v
    | none => (refuse .missing).under (.name (p.keys.headD p.name))

/-- A record of a model from the entries of a dictionary: all properties, then the rule. -/
def buildRecord (m : Model) (parts : Parts) : Verdict := do
  let as ← gather (m.properties.map fun p => checkProperty p parts)
  let slots := slotsOf m.properties (as.map Accepted.value)
  match m.rule slots with
  | some message => refuse (.rule message)
  | none =>
    let given := (m.properties.filter fun p => (findGiven p.keys parts).isSome).length
    .ok ⟨.record m.cls slots, overall .strict as, addGiven (some given) (totalGiven as)⟩

/-- A record of a model as it is, or one made from data. -/
def checkModel (cat : Catalogue) (name : String) (v : Value) (parts : Parts) : Verdict :=
  match v with
  | .dict _ =>
    match cat.model? name with
    | some m => buildRecord m parts
    | none => refuse .modelType
  | .record c slots =>
    if c.isA name then
      match cat.model? name with
      | some m => exact (m.view c slots)
      | none => exact (.record c slots)
    else refuse .modelType
  | _ => refuse .modelType

/-- The tag that tells which model data is for. -/
inductive Tag where
  | absent
  | present (v : Value)
  | unreadable

/-- Data and values with attributes have tags; plain values cannot. -/
def tagOf (tag : String) : Value → Tag
  | .dict es =>
    match Value.findEntry? es tag with
    | some v => .present v
    | none => .absent
  | .record c slots =>
    match (Value.record c slots).property? tag with
    | some v => .present v
    | none => .absent
  | .member _ | .choice .. | .date _ | .datetime _ | .duration _ | .chain _ => .absent
  | _ => .unreadable

/-- A record of the model that the tag names. -/
def checkTagged (cat : Catalogue) (tag : String) (cases : List (String × String)) (v : Value)
    (parts : Parts) : Verdict :=
  match tagOf tag v with
  | .unreadable => refuse .attributesType
  | .absent => refuse .tagMissing
  | .present t =>
    match t with
    | .str s =>
      match cases.lookup s with
      | some name => (checkModel cat name v parts).under (.name s)
      | none => refuse .tagUnknown
    | _ => refuse .tagUnknown

/-- The second alternative is better: it has more properties given, or as many and is closer. -/
def isBetter (best other : Accepted) : Bool :=
  let closer := best.closeness.rank < other.closeness.rank
  match best.given, other.given with
  | some n, some m => if n = m then closer else n < m
  | _, _ => closer

/-- The alternative that fits best; an exact one that is no record ends the search. -/
def bestOf (best : Option Accepted) (issues : List Issue) : List (String × Verdict) → Verdict
  | [] =>
    match best with
    | some a => .ok a
    | none => .error issues
  | (label, r) :: rs =>
    match r with
    | .ok a =>
      if a.closeness = .exact ∧ a.given = none then .ok a
      else
        match best with
        | some b => bestOf (some (if isBetter b a then a else b)) issues rs
        | none => bestOf (some a) issues rs
    | .error is => bestOf best (issues ++ issuesUnder (.name label) is) rs

/-- The first alternative that fits. -/
def firstOf (issues : List Issue) : List (String × Verdict) → Verdict
  | [] => .error issues
  | (label, r) :: rs =>
    match r with
    | .ok a => .ok a
    | .error is => firstOf (issues ++ issuesUnder (.name label) is) rs

/-- A tuple with a shape for each position; a missing item and one too many are refused. -/
def checkPositions (results : List Verdict) (n : Nat) (v : Value) (parts : Parts) : Verdict :=
  match v.collection? with
  | none => refuse .tupleType
  | some _ =>
    if parts.items.length > n then refuse .tooLong
    else do
      let missing := (List.range n).drop parts.items.length
      let as ← gather (placed 0 results ++
        missing.map fun i => (refuse .missing).under (.position (i : Nat)))
      .ok ⟨.tuple (as.map Accepted.value), overall (SequenceKind.tuple.closeness v) as,
        totalGiven as⟩

mutual

/-- What a shape makes of a value, given what checks the parts of the value. -/
def judge (cat : Catalogue) (v : Value) (parts : Parts) : Shape → Verdict
  | .any => loose v
  | .none => if v.isNull then exact v else refuse .noneRequired
  | .text => checkText v
  | .integer low high => checkWhole low high v
  | .number low high => checkDecimal low high v
  | .flag => checkFlag v
  | .duration => checkDuration v
  | .date => checkDate v
  | .datetime => checkDateTime v
  | .classRef =>
    match v with
    | .classRef name => exact (.classRef name)
    | _ => refuse .classType
  | .sequence kind item least => checkSequence kind item least v parts
  | .positions items => checkPositions (judgeEach parts.items items) items.length v parts
  | .mapping key value => checkMapping key value v parts
  | .optional inner => if v.isNull then exact v else judge cat v parts inner
  | .choice values => checkChoice values v
  | .member enumeration => checkMember cat enumeration v
  | .model name => checkModel cat name v parts
  | .tagged tag cases => checkTagged cat tag cases v parts
  | .anyOf members => bestOf none [] (judgeAll cat v parts members)
  | .firstOf members => firstOf [] (judgeAll cat v parts members)
  | .rooted inner =>
    match v, parts.items with
    | .chain _, [check] => check inner
    | v, _ => judge cat v parts inner

/-- What each of several shapes makes of a value, with the names of the shapes. -/
def judgeAll (cat : Catalogue) (v : Value) (parts : Parts) : List Shape → List (String × Verdict)
  | [] => []
  | s :: ss => (s.label, judge cat v parts s) :: judgeAll cat v parts ss

/-- Each item by the shape of its position. -/
def judgeEach : List (Shape → Verdict) → List Shape → List Verdict
  | check :: checks, s :: ss => check s :: judgeEach checks ss
  | _, _ => []

end

mutual

/-- What a shape makes of a value. -/
def check (cat : Catalogue) : Value → Shape → Verdict
  | .list xs => judge cat (.list xs) ⟨checkAll cat xs, []⟩
  | .tuple xs => judge cat (.tuple xs) ⟨checkAll cat xs, []⟩
  | .set xs => judge cat (.set xs) ⟨checkAll cat xs, []⟩
  | .dict es => judge cat (.dict es) ⟨[], checkEntries cat es⟩
  | .chain root => judge cat (.chain root) ⟨[check cat root], []⟩
  | v => judge cat v noParts

def checkAll (cat : Catalogue) : List Value → List (Shape → Verdict)
  | [] => []
  | x :: xs => check cat x :: checkAll cat xs

def checkEntries (cat : Catalogue) :
    List (Value × Value) → List (Value × (Shape → Verdict) × (Shape → Verdict))
  | [] => []
  | (k, v) :: es => (k, check cat k, check cat v) :: checkEntries cat es

end

namespace Catalogue

/-- A record of a model from named arguments. -/
def build (cat : Catalogue) (name : String) (args : Fields) : Except Failure Value :=
  match cat.model? name with
  | none => .error .noAttribute
  | some m =>
    match buildRecord m ⟨[], checkEntries cat (args.map fun f => (.str f.1, f.2))⟩ with
    | .ok a => .ok a.value
    | .error issues => .error (.rejected name issues)

/-- A record of a model from named arguments, without any check. A property that is not given
and has no default is absent. -/
def assume (cat : Catalogue) (name : String) (args : Fields) : Except Failure Value :=
  match cat.model? name with
  | none => .error .noAttribute
  | some m =>
    .ok (.record m.cls (m.properties.filterMap fun p =>
      ((p.keys ++ [p.name]).findSome? args.get? <|> p.default).map fun v => ⟨p.name, p.wire, v⟩))

end Catalogue

/-- The slots with another value for one property. -/
def setSlot (name : String) (v : Value) : List (Slot Value) → List (Slot Value)
  | [] => []
  | s :: slots =>
    if s.name = name then { s with value := v } :: slots else s :: setSlot name v slots

/-- Another value for a property of a record, without a check of the value. -/
def assign (cat : Catalogue) (v : Value) (name : String) (w : Value) : Except Failure Value :=
  match v with
  | .record c slots =>
    match cat.model? c.name with
    | none => .error .noAttribute
    | some m =>
      if m.frozen then .error (.rejected m.name [⟨[.name name], .frozen⟩])
      else
        match m.properties.find? (·.name == name) with
        | none => .error (.noField m.name name)
        | some p =>
          if slots.any (·.name == name) then .ok (.record c (setSlot name w slots))
          else .ok (.record c (slots ++ [⟨p.name, p.wire, w⟩]))
  | _ => .error .noAttribute

/-- Another value for a property that is reached through properties of properties. -/
def assignAt (cat : Catalogue) : List String → Value → Value → Except Failure Value
  | [], _, w => .ok w
  | [name], v, w => assign cat v name w
  | name :: path, v, w =>
    match v with
    | .record c slots =>
      match (Value.record c slots).property? name with
      | none => .error .noAttribute
      | some inner => do
        let inner ← assignAt cat path inner w
        .ok (.record c (setSlot name inner slots))
    | _ => .error .noAttribute

end SearchWire
