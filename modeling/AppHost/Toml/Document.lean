import AppHost.Decimal.Binary64

/-!
# Configuration documents

What a configuration text says, before anybody asks whether it fits. Tables keep their fields in
the order in which the text introduced them.

Headers and dotted keys each name a table by its path, and a table may be built up from several
places, within limits: no key is given twice, no table is opened by two headers, and dotted keys
add only to tables that dotted keys made. A table that was only passed through on the way to
another counts as implicit until a header opens it.
-/

namespace AppHost.Toml

inductive Value where
  | string (text : String)
  | integer (value : Int)
  | float (value : Decimal.Binary64)
  | boolean (value : Bool)
  | datetime (text : String)
  | array (items : List Value)
  | table (fields : List (String × Value))
  deriving Repr, Inhabited

inductive Node where
  | value (value : Value)
  /-- `implicit` until a header opens it; `dotted` if a dotted key made it. -/
  | table (implicit dotted : Bool) (fields : List (String × Node))
  | tables (elements : List (List (String × Node)))
  deriving Repr, Inhabited

abbrev Fields := List (String × Node)

namespace Fields

def put (fields : Fields) (name : String) (node : Node) : Fields :=
  match fields with
  | [] => [(name, node)]
  | field :: rest => if field.1 = name then (name, node) :: rest else field :: put rest name node

def without (fields : Fields) (name : String) : Fields := fields.filter (·.1 ≠ name)

/-- Changes the table at a path, making the tables on the way. A path leads through the last
element of an array of tables, and through no value. A dotted path leads through no table that a
header opened. `change` is told whether the table it gets was made by a dotted key. -/
def changeAt (dotted : Bool) (change : (madeByDots : Bool) → Fields → Option Fields) :
    (madeByDots : Bool) → List String → Fields → Option Fields
  | madeByDots, [], fields => change madeByDots fields
  | _, name :: path, fields =>
    match fields.lookup name with
    | none => do
      let inner ← changeAt dotted change dotted path []
      return fields ++ [(name, .table true dotted inner)]
    | some (.value _) => none
    | some (.table implicit made inner) =>
      if dotted && !implicit then none
      else do
        let inner ← changeAt dotted change made path inner
        return fields.put name (.table implicit made inner)
    | some (.tables elements) =>
      match elements.getLast? with
      | none => none
      | some last => do
        let last ← changeAt dotted change false path last
        return fields.put name (.tables (elements.dropLast ++ [last]))

def addValue (fields : Fields) (path : List String) (value : Value) : Option Fields :=
  match path.getLast? with
  | none => none
  | some name =>
    let parents := path.dropLast
    changeAt true (fun madeByDots fields =>
      if madeByDots = parents.isEmpty then none
      else if (fields.lookup name).isSome then none
      else some (fields ++ [(name, .value value)])) false parents fields

end Fields

mutual
def Node.toValue : Node → Value
  | .value value => value
  | .table _ _ fields => .table (fieldValues fields)
  | .tables elements => .array (elementValues elements)

def fieldValues : List (String × Node) → List (String × Value)
  | [] => []
  | (name, node) :: rest => (name, node.toValue) :: fieldValues rest

def elementValues : List (List (String × Node)) → List Value
  | [] => []
  | fields :: rest => .table (fieldValues fields) :: elementValues rest
end

inductive Line where
  | pair (path : List String) (value : Value)
  | header (path : List String)
  | element (path : List String)
  deriving Repr

/-- A document under construction: the tables that are finished, and the one that lines are being
added to, which is put into its place when the next header comes. -/
structure Draft where
  finished : Fields := []
  path : List String := []
  isElement : Bool := false
  fields : Fields := []
  deriving Repr, Inhabited

namespace Draft

def close (d : Draft) : Option Fields :=
  match d.path.getLast? with
  | none => some d.fields
  | some name =>
    Fields.changeAt false (fun _ parent =>
      if d.isElement then
        match parent.lookup name with
        | some (.tables elements) =>
          some (Fields.put parent name (.tables (elements ++ [d.fields])))
        | none => some (parent ++ [(name, .tables [d.fields])])
        | some _ => none
      else some (Fields.put parent name (.table false false d.fields))) false
        d.path.dropLast d.finished

/-- Opens a table. One that was passed through before is taken up where it is, with what it
holds; it then stands where it is opened. -/
def openTable (finished : Fields) (path : List String) : Option Draft := do
  let name ← path.getLast?
  let held (fields : Fields) : Option Fields :=
    match fields.lookup name with
    | none => some []
    | some (.table true false inner) => some inner
    | some _ => none
  let fields ← found held path.dropLast finished
  let finished ← Fields.changeAt false (fun _ parent => some (Fields.without parent name)) false
      path.dropLast finished
  return { finished, path, fields }
where
  found (look : Fields → Option Fields) : List String → Fields → Option Fields
    | [], fields => look fields
    | name :: path, fields =>
      match fields.lookup name with
      | none => some []
      | some (.value _) => none
      | some (.table _ _ inner) => found look path inner
      | some (.tables elements) =>
        match elements.getLast? with
        | none => none
        | some last => found look path last

def openElement (finished : Fields) (path : List String) : Option Draft := do
  let name ← path.getLast?
  let finished ← Fields.changeAt false (fun _ parent =>
    match parent.lookup name with
    | none => some (parent ++ [(name, .tables [])])
    | some (.tables _) => some parent
    | some _ => none) false path.dropLast finished
  return { finished, path, isElement := true }

def add (d : Draft) : Line → Option Draft
  | .pair path value => do
    let fields ← d.fields.addValue path value
    return { d with fields }
  | .header path => do openTable (← d.close) path
  | .element path => do openElement (← d.close) path

end Draft

def document? (lines : List Line) : Option (List (String × Value)) := do
  let d ← lines.foldlM Draft.add {}
  return fieldValues (← d.close)

end AppHost.Toml
