import LayeredConfig.Yaml.Raw
import LayeredConfig.Yaml.Token

set_option autoImplicit false

/-!
# From tokens to nodes

The grammar of block and flow collections. A missing key or value is an empty plain scalar. Anchors
are numbered by how many different names came before; tags are put together from their handles.
-/
namespace LayeredConfig.Yaml

/-- The tokens that follow, the handles of tags, the names of anchors with their numbers, and the
anchored nodes. -/
structure Reading where
  tokens : List Token
  handles : List (String × Tag)
  names : List (String × Nat)
  anchored : List Anchored
  events : Nat

abbrev Grammar (α : Type) : Type := StateT Reading Option α

namespace Grammar

def fail {α : Type} : Grammar α := fun _ => none

/-- The next token; behind the last one the end of the text stays in front. -/
def look : Grammar Token := do return (← get).tokens.headD .streamEnd

def advance : Grammar Unit := modify fun s => { s with tokens := s.tokens.drop 1 }

/-- Passes the token if it is next, and says whether it was. -/
def accept (token : Token) : Grammar Bool := do
  if (← look) = token then
    advance
    return true
  else return false

def require (token : Token) : Grammar Unit := do
  if ← accept token then return else fail

def sees (tokens : List Token) : Grammar Bool := do return tokens.contains (← look)

/-- Counts events and gives the number of those before. -/
def event (count : Nat) : Grammar Nat := fun s => some (s.events, { s with events := s.events + count })

def emptyScalar : Grammar Raw := do
  let _ ← event 1
  return .scalar none "" true

/-- What stands in front of a node: its anchor and its tag, in either order. -/
structure Properties where
  anchor : Option String
  tag : Option (String × Tag)

def properties : Grammar Properties := do
  match ← look with
  | .anchor name =>
    advance
    match ← look with
    | .tag handle suffix =>
      advance
      return ⟨some name, some (handle, suffix)⟩
    | _ => return ⟨some name, none⟩
  | .tag handle suffix =>
    advance
    match ← look with
    | .anchor name =>
      advance
      return ⟨some name, some (handle, suffix)⟩
    | _ => return ⟨none, some (handle, suffix)⟩
  | _ => return ⟨none, none⟩

/-- The whole tag; an unknown handle is an error. -/
def fullTag (tag : Option (String × Tag)) : Grammar (Option Tag) := do
  match tag with
  | none => return none
  | some ("", suffix) => return some suffix
  | some (handle, suffix) =>
    match (← get).handles.lookup handle with
    | some start => return some (start.join suffix)
    | none => fail

/-- Gives the anchor its number, at the start of its node. -/
def openAnchor (anchor : Option String) : Grammar (Option Nat) := do
  match anchor with
  | none => return none
  | some name =>
    let number := (← get).names.length
    modify fun s => { s with names := (name, number) :: s.names.filter (·.1 != name) }
    return some number

/-- Keeps the node of an anchor that was opened before `start` events. -/
def closeAnchor (number : Option Nat) (start : Nat) (node : Raw) : Grammar Raw := do
  if let some n := number then
    modify fun s => { s with anchored := ⟨n, start, node⟩ :: s.anchored }
  return node

def afterEntry : List Token := [.blockEntry, .blockEnd]

def afterIndentlessEntry : List Token := [.blockEntry, .key, .value, .blockEnd]

def afterBlockKey : List Token := [.key, .value, .blockEnd]

mutual

/-- A node. `block` allows block collections, and `indentless` a block sequence at the indentation
of the mapping around it. -/
def node (block indentless : Bool) : Nat → Grammar Raw
  | 0 => fail
  | fuel + 1 => do
    if let .alias name ← look then
      advance
      let _ ← event 1
      match (← get).names.lookup name with
      | some number => return .alias number
      | none => fail
    else
      let found ← properties
      let tag ← fullTag found.tag
      let number ← openAnchor found.anchor
      match ← look with
      | .scalar text plain =>
        advance
        let start ← event 1
        closeAnchor number start (.scalar tag text plain)
      | .flowSequenceStart =>
        advance
        let start ← event 2
        closeAnchor number start (.sequence tag (← flowItems true fuel))
      | .flowMappingStart =>
        advance
        let start ← event 2
        closeAnchor number start (.mapping tag (← flowEntries true fuel))
      | .blockEntry =>
        if indentless then
          let start ← event 2
          closeAnchor number start (.sequence tag (← indentlessItems fuel))
        else propertiesOnly found number tag
      | .blockSequenceStart =>
        if block then
          advance
          let start ← event 2
          closeAnchor number start (.sequence tag (← blockItems fuel))
        else propertiesOnly found number tag
      | .blockMappingStart =>
        if block then
          advance
          let start ← event 2
          closeAnchor number start (.mapping tag (← blockEntries fuel))
        else propertiesOnly found number tag
      | _ => propertiesOnly found number tag

/-- An empty node, which needs an anchor or a tag to be one. -/
def propertiesOnly (found : Properties) (number : Option Nat) (tag : Option Tag) :
    Grammar Raw := do
  if found.anchor.isNone ∧ tag.isNone then fail
  else
    let start ← event 1
    closeAnchor number start (.scalar tag "" true)

def blockItems : Nat → Grammar (List Raw)
  | 0 => fail
  | fuel + 1 => do
    if ← accept .blockEntry then
      let item ← if ← sees afterEntry then emptyScalar else node true false fuel
      return item :: (← blockItems fuel)
    else
      require .blockEnd
      return []

def indentlessItems : Nat → Grammar (List Raw)
  | 0 => fail
  | fuel + 1 => do
    if ← accept .blockEntry then
      let item ← if ← sees afterIndentlessEntry then emptyScalar else node true false fuel
      return item :: (← indentlessItems fuel)
    else return []

def blockEntries : Nat → Grammar (List (Raw × Raw))
  | 0 => fail
  | fuel + 1 => do
    if ← accept .key then
      let key ← if ← sees afterBlockKey then emptyScalar else node true true fuel
      let value ← blockValue fuel
      return (key, value) :: (← blockEntries fuel)
    else
      require .blockEnd
      return []

def blockValue : Nat → Grammar Raw
  | 0 => fail
  | fuel + 1 => do
    if ← accept .value then
      if ← sees afterBlockKey then emptyScalar else node true true fuel
    else emptyScalar

/-- The items of a flow sequence up to its end; a key makes an item a mapping of one entry. -/
def flowItems (first : Bool) : Nat → Grammar (List Raw)
  | 0 => fail
  | fuel + 1 => do
    if ← accept .flowSequenceEnd then return []
    else
      if !first then require .flowEntry
      if ← accept .key then
        let _ ← event 2
        let entry ← flowPair fuel
        return .mapping none [entry] :: (← flowItems false fuel)
      else if ← accept .flowSequenceEnd then return []
      else
        let item ← node false false fuel
        return item :: (← flowItems false fuel)

/-- The entry of a flow sequence behind its key token. A token in the place of a missing key is
passed. -/
def flowPair : Nat → Grammar (Raw × Raw)
  | 0 => fail
  | fuel + 1 => do
    let key ←
      if ← sees [.value, .flowEntry, .flowSequenceEnd] then
        advance
        emptyScalar
      else node false false fuel
    if ← accept .value then
      if ← sees [.flowEntry, .flowSequenceEnd] then return (key, ← emptyScalar)
      else return (key, ← node false false fuel)
    else return (key, ← emptyScalar)

def flowEntries (first : Bool) : Nat → Grammar (List (Raw × Raw))
  | 0 => fail
  | fuel + 1 => do
    if ← accept .flowMappingEnd then return []
    else
      if !first then require .flowEntry
      if ← accept .key then
        let key ←
          if ← sees [.value, .flowEntry, .flowMappingEnd] then emptyScalar
          else node false false fuel
        let value ← flowValue fuel
        return (key, value) :: (← flowEntries false fuel)
      else if ← accept .flowMappingEnd then return []
      else
        let key ← node false false fuel
        let value ← emptyScalar
        return (key, value) :: (← flowEntries false fuel)

def flowValue : Nat → Grammar Raw
  | 0 => fail
  | fuel + 1 => do
    if ← accept .value then
      if ← sees [.flowEntry, .flowMappingEnd] then emptyScalar else node false false fuel
    else emptyScalar

end

/-- The handles that every document knows. -/
def standardHandles : List (String × Tag) := [("!", .ofString "!"), ("!!", .standard "")]

/-- The directives of a document. A version must be 1.1 or 1.2, and nothing may be said twice. -/
def directives (version : Bool) : Nat → Grammar Unit
  | 0 => fail
  | fuel + 1 => do
    match ← look with
    | .versionDirective major minor =>
      if version ∨ major ≠ 1 ∨ (minor ≠ 1 ∧ minor ≠ 2) then fail
      else
        advance
        directives true fuel
    | .tagDirective handle start =>
      if ((← get).handles.lookup handle).isSome then fail
      else
        advance
        modify fun s => { s with handles := s.handles ++ [(handle, start)] }
        directives version fuel
    | _ => modify fun s => { s with handles := s.handles ++ standardHandles }

/-- The one document of a text; without any it is empty. -/
def document (fuel : Nat) : Grammar Raw := do
  if ← sees [.streamEnd] then emptyScalar
  else
    let before := (← get).tokens.length
    directives false fuel
    let explicit ← accept .documentStart
    if !explicit && (← get).tokens.length != before then fail
    else
      let root ←
        if explicit && (← atDocumentEnd) then emptyScalar else node true false fuel
      documentEnds fuel
      require .streamEnd
      return root
where
  atDocumentEnd : Grammar Bool := do
    match ← look with
    | .versionDirective _ _ => return true
    | .tagDirective _ _ => return true
    | .documentStart => return true
    | .documentEnd => return true
    | .streamEnd => return true
    | _ => return false
  documentEnds : Nat → Grammar Unit
    | 0 => return
    | n + 1 => do if ← accept .documentEnd then documentEnds n

end Grammar

/-- The document that the tokens describe. -/
def RawDocument.ofTokens? (tokens : List Token) : Option RawDocument :=
  let fuel := 4 * tokens.length + 8
  (Grammar.document fuel ⟨tokens, [], [], [], 0⟩).map fun found =>
    ⟨found.1, found.2.anchored, found.2.events⟩

end LayeredConfig.Yaml
