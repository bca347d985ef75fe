import PqcUtils.Library.Runs

/-!
# XML

A strict reader of a part of XML 1.0: elements with attributes in double quotes,
character data and the five predefined entities, behind the declaration. Quotes and
`>` in data must be escaped, and carriage returns are refused since they would be
read as line feeds. `Reads` says what a piece of content adds to the nodes read so
far, wherever it stands; it composes along the structure of a document.
-/

namespace PqcUtils.Xml

/-! ## Documents -/

/-- Character data is kept one character at a time. -/
inductive Node where
  | text (c : Char)
  | element (name : String) (attributes : List (String × String)) (content : List Node)

/-- A character of XML 1.0 other than a carriage return. -/
def Allowed (c : Char) : Prop :=
  c = '\t' ∨ c = '\n' ∨ (0x20 ≤ c.toNat ∧ c.toNat ≤ 0xD7FF) ∨
    (0xE000 ≤ c.toNat ∧ c.toNat ≤ 0xFFFD) ∨ 0x10000 ≤ c.toNat

instance (c : Char) : Decidable (Allowed c) :=
  inferInstanceAs (Decidable (c = '\t' ∨ c = '\n' ∨ (0x20 ≤ c.toNat ∧ c.toNat ≤ 0xD7FF) ∨
    (0xE000 ≤ c.toNat ∧ c.toNat ≤ 0xFFFD) ∨ 0x10000 ≤ c.toNat))

def entities : List (List Char × Char) :=
  [(['a', 'm', 'p'], '&'), (['l', 't'], '<'), (['g', 't'], '>'), (['q', 'u', 'o', 't'], '"'),
    (['a', 'p', 'o', 's'], '\'')]

def isEscaped (c : Char) : Bool := entities.any fun entity => entity.2 = c

def Plain (c : Char) : Prop := Allowed c ∧ isEscaped c = false

instance (c : Char) : Decidable (Plain c) :=
  inferInstanceAs (Decidable (Allowed c ∧ isEscaped c = false))

def nameStart (c : Char) : Bool := c.isAlpha || c = '_' || c = ':'

def nameChar (c : Char) : Bool := nameStart c || c.isDigit || c = '-' || c = '.'

def isName (name : String) : Bool :=
  match name.toList with
  | [] => false
  | c :: rest => nameStart c && rest.all nameChar

/-! ## The reader -/

/-- A start tag as far as it is read. -/
structure Tag where
  name : String
  attributes : List (String × String)

def Tag.add (tag : Tag) (key value : String) : Tag :=
  { tag with attributes := tag.attributes ++ [(key, value)] }

/-- An element that is not closed, and what is before it in its parent. -/
structure Frame where
  tag : Tag
  before : List Node

inductive Mode where
  | content
  | entity (name : List Char)
  | markup
  | openName (name : List Char)
  | tag (tag : Tag)
  | attrName (tag : Tag) (key : List Char)
  | attrStart (tag : Tag) (key : String)
  | attrValue (tag : Tag) (key : String) (value : List Char)
  | attrEntity (tag : Tag) (key : String) (value name : List Char)
  | attrEnd (tag : Tag)
  | slash (tag : Tag)
  | closeName (name : List Char)

structure Reader where
  mode : Mode
  content : List Node
  stack : List Frame

namespace Reader

def push (reader : Reader) (node : Node) : Reader :=
  { reader with mode := .content, content := reader.content ++ [node] }

def enter (reader : Reader) (tag : Tag) : Reader :=
  ⟨.content, [], ⟨tag, reader.content⟩ :: reader.stack⟩

def leave (reader : Reader) (name : String) : Option Reader :=
  match reader.stack with
  | [] => none
  | frame :: stack =>
    if frame.tag.name = name then
      some ⟨.content, frame.before ++ [.element name frame.tag.attributes reader.content], stack⟩
    else none

def behind (reader : Reader) (tag : Tag) (c : Char) : Option Reader :=
  if c = ' ' then some { reader with mode := .tag tag }
  else if c = '>' then some (reader.enter tag)
  else if c = '/' then some { reader with mode := .slash tag }
  else none

end Reader

/-- White space in an attribute is read as a space. -/
def normalize (c : Char) : Char := if c = '\t' ∨ c = '\n' then ' ' else c

def step (reader : Reader) (c : Char) : Option Reader :=
  match reader.mode with
  | .content =>
    if c = '<' then some { reader with mode := .markup }
    else if c = '&' then some { reader with mode := .entity [] }
    else if Plain c then some (reader.push (.text c)) else none
  | .entity name =>
    if c = ';' then (entities.lookup name).map fun decoded => reader.push (.text decoded)
    else some { reader with mode := .entity (name ++ [c]) }
  | .markup =>
    if c = '/' then some { reader with mode := .closeName [] }
    else if nameStart c then some { reader with mode := .openName [c] } else none
  | .openName name =>
    if nameChar c then some { reader with mode := .openName (name ++ [c]) }
    else reader.behind ⟨.ofList name, []⟩ c
  | .tag tag =>
    if nameStart c then some { reader with mode := .attrName tag [c] } else reader.behind tag c
  | .attrName tag key =>
    if nameChar c then some { reader with mode := .attrName tag (key ++ [c]) }
    else if c = '=' then some { reader with mode := .attrStart tag (.ofList key) } else none
  | .attrStart tag key =>
    if c = '"' then some { reader with mode := .attrValue tag key [] } else none
  | .attrValue tag key value =>
    if c = '"' then
      if key ∈ tag.attributes.map Prod.fst then none
      else some { reader with mode := .attrEnd (tag.add key (.ofList value)) }
    else if c = '&' then some { reader with mode := .attrEntity tag key value [] }
    else if Plain c then some { reader with mode := .attrValue tag key (value ++ [normalize c]) }
    else none
  | .attrEntity tag key value name =>
    if c = ';' then
      (entities.lookup name).map fun decoded =>
        { reader with mode := .attrValue tag key (value ++ [decoded]) }
    else some { reader with mode := .attrEntity tag key value (name ++ [c]) }
  | .attrEnd tag => reader.behind tag c
  | .slash tag =>
    if c = '>' then some (reader.push (.element tag.name tag.attributes [])) else none
  | .closeName name =>
    if c = '>' then reader.leave (.ofList name)
    else if nameChar c then some { reader with mode := .closeName (name ++ [c]) } else none

def declaration : List Char := "<?xml version=\"1.0\" encoding=\"UTF-8\"?>".toList

def isWhite : Node → Bool
  | .text c => c = ' ' || c = '\t' || c = '\n'
  | .element _ _ _ => false

def root (nodes : List Node) : Option Node :=
  match nodes.filter fun node => !isWhite node with
  | [.element name attributes content] => some (.element name attributes content)
  | _ => none

def read (text : String) : Option Node :=
  if declaration <+: text.toList then
    match Runs.run step ⟨.content, [], []⟩ (text.toList.drop declaration.length) with
    | some ⟨.content, nodes, []⟩ => root nodes
    | _ => none
  else none

/-! ## Looking into documents -/

def elements (name : String) (nodes : List Node) : List (List (String × String) × List Node) :=
  nodes.filterMap fun
    | .element other attributes content => if other = name then some (attributes, content) else none
    | .text _ => none

@[simp] theorem elements_append (name : String) (nodes others : List Node) :
    elements name (nodes ++ others) = elements name nodes ++ elements name others :=
  List.filterMap_append

@[simp] theorem elements_nil (name : String) : elements name [] = [] := rfl

@[simp] theorem elements_text (name : String) (c : Char) (nodes : List Node) :
    elements name (.text c :: nodes) = elements name nodes := rfl

@[simp] theorem elements_map_text (name : String) (text : List Char) :
    elements name (text.map .text) = [] := by
  induction text with
  | nil => rfl
  | cons c text ih => exact ih

@[simp] theorem elements_element (name other : String) (attributes : List (String × String))
    (content nodes : List Node) :
    elements name (.element other attributes content :: nodes) =
      if other = name then (attributes, content) :: elements name nodes
      else elements name nodes := by
  by_cases same : other = name <;> simp [elements, same]

theorem elements_flatMap {Value : Type*} (name : String) (values : List Value)
    (nodes : Value → List Node) :
    elements name (values.flatMap nodes) =
      values.flatMap fun value => elements name (nodes value) := by
  induction values with
  | nil => rfl
  | cons value values ih => rw [List.flatMap_cons, elements_append, ih, List.flatMap_cons]

def characters : List Node → Option (List Char)
  | [] => some []
  | .text c :: nodes => (characters nodes).map (c :: ·)
  | .element _ _ _ :: _ => none

def textOf (nodes : List Node) : Option String := (characters nodes).map String.ofList

theorem textOf_map_text (text : String) : textOf (text.toList.map .text) = some text := by
  have all (chars : List Char) : characters (chars.map .text) = some chars := by
    induction chars with
    | nil => rfl
    | cons c chars ih => rw [List.map_cons, characters, ih, Option.map_some]
  rw [textOf, all, Option.map_some, String.ofList_toList]

/-! ## Writing -/

def escapeChar (c : Char) : List Char :=
  if c = '&' then ['&', 'a', 'm', 'p', ';']
  else if c = '<' then ['&', 'l', 't', ';']
  else if c = '>' then ['&', 'g', 't', ';']
  else if c = '"' then ['&', 'q', 'u', 'o', 't', ';']
  else if c = '\'' then ['&', 'a', 'p', 'o', 's', ';']
  else [c]

def escape (text : List Char) : List Char := text.flatMap escapeChar

def attributeText (entry : String × String) : List Char :=
  ' ' :: entry.1.toList ++ ['=', '"'] ++ escape entry.2.toList ++ ['"']

def openTag (name : String) (attributes : List (String × String)) : List Char :=
  '<' :: name.toList ++ attributes.flatMap attributeText ++ ['>']

def closeTag (name : String) : List Char := '<' :: '/' :: name.toList ++ ['>']

def emptyTag (name : String) (attributes : List (String × String)) : List Char :=
  '<' :: name.toList ++ attributes.flatMap attributeText ++ [' ', '/', '>']

def normalized (attributes : List (String × String)) : List (String × String) :=
  attributes.map fun entry => (entry.1, .ofList (entry.2.toList.map normalize))

structure ValidAttributes (attributes : List (String × String)) : Prop where
  names : ∀ entry ∈ attributes, isName entry.1 = true
  allowed : ∀ entry ∈ attributes, ∀ c ∈ entry.2.toList, Allowed c
  distinct : (attributes.map Prod.fst).Nodup

theorem ValidAttributes.nil : ValidAttributes [] := ⟨by simp, by simp, by simp⟩

theorem ValidAttributes.cons {attributes : List (String × String)} {key value : String}
    (name : isName key = true) (allowed : ∀ c ∈ value.toList, Allowed c)
    (fresh : key ∉ attributes.map Prod.fst) (others : ValidAttributes attributes) :
    ValidAttributes ((key, value) :: attributes) where
  names := List.forall_mem_cons.mpr ⟨name, others.names⟩
  allowed := List.forall_mem_cons.mpr ⟨allowed, others.allowed⟩
  distinct := List.nodup_cons.mpr ⟨fresh, others.distinct⟩

/-! ## Reading what was written -/

/-- Wherever it stands, the text adds these nodes to the content. -/
def Reads (text : List Char) (nodes : List Node) : Prop :=
  ∀ before stack, Runs.run step ⟨.content, before, stack⟩ text =
    some ⟨.content, before ++ nodes, stack⟩

theorem Reads.nil : Reads [] [] := by
  intro before stack
  simp

theorem Reads.append {text more : List Char} {nodes others : List Node} (reads : Reads text nodes)
    (readsMore : Reads more others) : Reads (text ++ more) (nodes ++ others) := by
  intro before stack
  rw [Runs.run_append, reads, Option.bind_some, readsMore, List.append_assoc]

theorem Reads.flatMap {Value : Type*} {values : List Value} {text : Value → List Char}
    {nodes : Value → List Node} (reads : ∀ value ∈ values, Reads (text value) (nodes value)) :
    Reads (values.flatMap text) (values.flatMap nodes) := by
  induction values with
  | nil => exact .nil
  | cons value values ih =>
    obtain ⟨first, others⟩ := List.forall_mem_cons.mp reads
    exact first.append (ih others)

/-- The check runs over the text, where `decide` may run over the type of characters. -/
theorem plain_of_all {text : List Char} (checked : text.all (fun c => decide (Plain c)) = true) :
    ∀ c ∈ text, Plain c := by
  simpa only [List.all_eq_true, decide_eq_true_eq] using checked

theorem plain_of_not_escaped {c : Char} (allowed : Allowed c)
    (others : c ≠ '&' ∧ c ≠ '<' ∧ c ≠ '>' ∧ c ≠ '"' ∧ c ≠ '\'') : Plain c := by
  refine ⟨allowed, ?_⟩
  obtain ⟨amp, lt, gt, quot, apos⟩ := others
  simp [isEscaped, entities, amp.symm, lt.symm, gt.symm, quot.symm, apos.symm]

theorem reads_escapeChar {c : Char} (allowed : Allowed c) : Reads (escapeChar c) [.text c] := by
  intro before stack
  rw [escapeChar]
  split_ifs with amp lt gt quot apos
  · subst amp; rfl
  · subst lt; rfl
  · subst gt; rfl
  · subst quot; rfl
  · subst apos; rfl
  · have plain : Plain c := plain_of_not_escaped allowed ⟨amp, lt, gt, quot, apos⟩
    simp [step, amp, lt, plain, Reader.push]

theorem reads_escape {text : List Char} (allowed : ∀ c ∈ text, Allowed c) :
    Reads (escape text) (text.map .text) := by
  rw [← List.flatMap_singleton' (text.map Node.text), List.flatMap_map]
  exact Reads.flatMap fun c membership => reads_escapeChar (allowed c membership)

/-! ### Tags -/

theorem exists_of_isName {name : String} (valid : isName name = true) :
    ∃ first rest, name.toList = first :: rest ∧ nameStart first = true ∧
      ∀ c ∈ rest, nameChar c = true := by
  rw [isName] at valid
  split at valid
  · cases valid
  · next first rest chars =>
    simp only [Bool.and_eq_true, List.all_eq_true] at valid
    exact ⟨first, rest, chars, valid⟩

theorem nameChar_of_nameStart {c : Char} (start : nameStart c = true) : nameChar c = true := by
  simp [nameChar, start]

theorem run_collect {mode : List Char → Mode} {Takes : Char → Prop} {content : List Node}
    {stack : List Frame} (takes : ∀ name c, Takes c → step ⟨mode name, content, stack⟩ c =
      some ⟨mode (name ++ [c]), content, stack⟩) {chars : List Char}
    (all : ∀ c ∈ chars, Takes c) (name : List Char) :
    Runs.run step ⟨mode name, content, stack⟩ chars =
      some ⟨mode (name ++ chars), content, stack⟩ := by
  induction chars generalizing name with
  | nil => simp
  | cons c chars ih =>
    obtain ⟨here, later⟩ := List.forall_mem_cons.mp all
    rw [Runs.run_cons, takes name c here, Option.bind_some, ih later]
    simp

section Tags

variable (before : List Node) (stack : List Frame)

theorem run_openName {name : String} (valid : isName name = true) :
    Runs.run step ⟨.content, before, stack⟩ ('<' :: name.toList) =
      some ⟨.openName name.toList, before, stack⟩ := by
  obtain ⟨first, rest, chars, start, later⟩ := exists_of_isName valid
  have opened : step ⟨.content, before, stack⟩ '<' = some ⟨.markup, before, stack⟩ := rfl
  have notSlash : first ≠ '/' := by
    rintro rfl
    cases start
  have named : step ⟨.markup, before, stack⟩ first = some ⟨.openName [first], before, stack⟩ := by
    simp [step, notSlash, start]
  have takes (name : List Char) (c : Char) (taken : nameChar c = true) :
      step ⟨.openName name, before, stack⟩ c = some ⟨.openName (name ++ [c]), before, stack⟩ := by
    simp [step, taken]
  rw [chars, Runs.run_cons, opened, Option.bind_some, Runs.run_cons, named, Option.bind_some,
    run_collect takes later]
  rfl

theorem run_behindName (name : String) {c : Char} (ends : nameChar c = false) (rest : List Char) :
    Runs.run step ⟨.openName name.toList, before, stack⟩ (c :: rest) =
      Runs.run step ⟨.attrEnd ⟨name, []⟩, before, stack⟩ (c :: rest) := by
  have same : step ⟨.openName name.toList, before, stack⟩ c =
      step ⟨.attrEnd ⟨name, []⟩, before, stack⟩ c := by
    simp [step, ends, Reader.behind, Reader.enter]
  rw [Runs.run_cons, same, ← Runs.run_cons]

theorem run_escapeChar {c : Char} (allowed : Allowed c) (tag : Tag) (key : String)
    (value : List Char) :
    Runs.run step ⟨.attrValue tag key value, before, stack⟩ (escapeChar c) =
      some ⟨.attrValue tag key (value ++ [normalize c]), before, stack⟩ := by
  rw [escapeChar]
  split_ifs with amp lt gt quot apos
  · subst amp; rfl
  · subst lt; rfl
  · subst gt; rfl
  · subst quot; rfl
  · subst apos; rfl
  · have plain : Plain c := plain_of_not_escaped allowed ⟨amp, lt, gt, quot, apos⟩
    simp [step, quot, amp, plain]

theorem run_escape {chars : List Char} (allowed : ∀ c ∈ chars, Allowed c) (tag : Tag)
    (key : String) (value : List Char) :
    Runs.run step ⟨.attrValue tag key value, before, stack⟩ (escape chars) =
      some ⟨.attrValue tag key (value ++ chars.map normalize), before, stack⟩ := by
  induction chars generalizing value with
  | nil => simp [escape]
  | cons c chars ih =>
    obtain ⟨here, later⟩ := List.forall_mem_cons.mp allowed
    rw [escape, List.flatMap_cons, Runs.run_append, run_escapeChar before stack here,
      Option.bind_some, ← escape, ih later]
    simp

theorem run_attribute {tag : Tag} {key : String} {value : String} (valid : isName key = true)
    (fresh : key ∉ tag.attributes.map Prod.fst) (allowed : ∀ c ∈ value.toList, Allowed c) :
    Runs.run step ⟨.attrEnd tag, before, stack⟩ (attributeText (key, value)) =
      some ⟨.attrEnd (tag.add key (.ofList (value.toList.map normalize))), before, stack⟩ := by
  obtain ⟨first, rest, chars, start, later⟩ := exists_of_isName valid
  have spaced : step ⟨.attrEnd tag, before, stack⟩ ' ' = some ⟨.tag tag, before, stack⟩ := rfl
  have named : step ⟨.tag tag, before, stack⟩ first =
      some ⟨.attrName tag [first], before, stack⟩ := by
    simp [step, start]
  have takes (name : List Char) (c : Char) (taken : nameChar c = true) :
      step ⟨.attrName tag name, before, stack⟩ c =
        some ⟨.attrName tag (name ++ [c]), before, stack⟩ := by
    simp [step, taken]
  have equals : step ⟨.attrName tag key.toList, before, stack⟩ '=' =
      some ⟨.attrStart tag key, before, stack⟩ := by
    simp [step, show nameChar '=' = false from rfl]
  have opened : step ⟨.attrStart tag key, before, stack⟩ '"' =
      some ⟨.attrValue tag key [], before, stack⟩ := rfl
  have closed : step ⟨.attrValue tag key (value.toList.map normalize), before, stack⟩ '"' =
      some ⟨.attrEnd (tag.add key (.ofList (value.toList.map normalize))), before, stack⟩ := by
    simp only [step, if_true, fresh, if_false]
  have nameRead : Runs.run step ⟨.attrEnd tag, before, stack⟩ (' ' :: key.toList) =
      some ⟨.attrName tag key.toList, before, stack⟩ := by
    rw [chars, Runs.run_cons, spaced, Option.bind_some, Runs.run_cons, named, Option.bind_some,
      run_collect takes later]
    rfl
  have equalsRead : Runs.run step ⟨.attrName tag key.toList, before, stack⟩ ['=', '"'] =
      some ⟨.attrValue tag key [], before, stack⟩ := by
    rw [Runs.run_cons, equals, Option.bind_some, Runs.run_cons, opened, Option.bind_some,
      Runs.run_nil]
  rw [attributeText, Runs.run_append, Runs.run_append, Runs.run_append, nameRead,
    Option.bind_some, equalsRead, Option.bind_some, run_escape before stack allowed,
    Option.bind_some, List.nil_append, Runs.run_cons, closed, Option.bind_some, Runs.run_nil]

theorem run_attributes {attributes : List (String × String)} (valid : ValidAttributes attributes)
    {tag : Tag} (fresh : ∀ key ∈ attributes.map Prod.fst, key ∉ tag.attributes.map Prod.fst) :
    Runs.run step ⟨.attrEnd tag, before, stack⟩ (attributes.flatMap attributeText) =
      some ⟨.attrEnd ⟨tag.name, tag.attributes ++ normalized attributes⟩, before, stack⟩ := by
  induction attributes generalizing tag with
  | nil => simp [normalized]
  | cons entry attributes ih =>
    obtain ⟨key, value⟩ := entry
    obtain ⟨names, allowed, distinct⟩ := valid
    obtain ⟨name, otherNames⟩ := List.forall_mem_cons.mp names
    obtain ⟨allowedValue, allowedOthers⟩ := List.forall_mem_cons.mp allowed
    obtain ⟨absent, distinctOthers⟩ := List.nodup_cons.mp distinct
    obtain ⟨freshKey, freshOthers⟩ := List.forall_mem_cons.mp fresh
    have added : ∀ other ∈ attributes.map Prod.fst,
        other ∉ (tag.add key (.ofList (value.toList.map normalize))).attributes.map Prod.fst := by
      intro other membership
      have different : other ≠ key := fun same => absent (same ▸ membership)
      simpa [Tag.add, different] using freshOthers other membership
    rw [List.flatMap_cons, Runs.run_append, run_attribute before stack name freshKey allowedValue,
      Option.bind_some, ih ⟨otherNames, allowedOthers, distinctOthers⟩ added]
    simp [Tag.add, normalized]

/-- A start tag up to what ends it. -/
theorem run_startTag {name : String} (valid : isName name = true)
    {attributes : List (String × String)} (validAttributes : ValidAttributes attributes) {c : Char}
    (ends : nameChar c = false) (rest : List Char) :
    Runs.run step ⟨.content, before, stack⟩
        ('<' :: name.toList ++ attributes.flatMap attributeText ++ c :: rest) =
      Runs.run step ⟨.attrEnd ⟨name, normalized attributes⟩, before, stack⟩ (c :: rest) := by
  have attributesRead : Runs.run step ⟨.attrEnd ⟨name, []⟩, before, stack⟩
        (attributes.flatMap attributeText) =
      some ⟨.attrEnd ⟨name, normalized attributes⟩, before, stack⟩ :=
    run_attributes before stack validAttributes (by simp)
  have behindName : Runs.run step ⟨.openName name.toList, before, stack⟩
        (attributes.flatMap attributeText ++ c :: rest) =
      Runs.run step ⟨.attrEnd ⟨name, []⟩, before, stack⟩
        (attributes.flatMap attributeText ++ c :: rest) := by
    cases attributes with
    | nil => exact run_behindName before stack name ends rest
    | cons entry attributes => exact run_behindName before stack name rfl _
  rw [List.append_assoc, Runs.run_append, run_openName before stack valid, Option.bind_some,
    behindName, Runs.run_append, attributesRead]
  rfl

theorem run_closeTag {name : String} (valid : isName name = true) (content : List Node)
    (attributes : List (String × String)) :
    Runs.run step ⟨.content, content, ⟨⟨name, attributes⟩, before⟩ :: stack⟩ (closeTag name) =
      some ⟨.content, before ++ [.element name attributes content], stack⟩ := by
  obtain ⟨first, rest, chars, start, later⟩ := exists_of_isName valid
  have all : ∀ c ∈ name.toList, nameChar c = true := by
    rw [chars]
    exact List.forall_mem_cons.mpr ⟨nameChar_of_nameStart start, later⟩
  have takes (taken : List Char) (c : Char) (part : nameChar c = true) :
      step ⟨.closeName taken, content, ⟨⟨name, attributes⟩, before⟩ :: stack⟩ c =
        some ⟨.closeName (taken ++ [c]), content, ⟨⟨name, attributes⟩, before⟩ :: stack⟩ := by
    have inside : c ≠ '>' := by
      rintro rfl
      cases part
    simp [step, part, inside]
  have opened :
      Runs.run step ⟨.content, content, ⟨⟨name, attributes⟩, before⟩ :: stack⟩ ['<', '/'] =
      some ⟨.closeName [], content, ⟨⟨name, attributes⟩, before⟩ :: stack⟩ := rfl
  have closed : step ⟨.closeName name.toList, content, ⟨⟨name, attributes⟩, before⟩ :: stack⟩ '>' =
      some ⟨.content, before ++ [.element name attributes content], stack⟩ := by
    simp [step, Reader.leave]
  have split : closeTag name = ['<', '/'] ++ name.toList ++ ['>'] := rfl
  rw [split, Runs.run_append, Runs.run_append, opened, Option.bind_some, run_collect takes all,
    Option.bind_some, List.nil_append, Runs.run_cons, closed, Option.bind_some, Runs.run_nil]

end Tags

theorem escape_of_plain {text : List Char} (plain : ∀ c ∈ text, Plain c) : escape text = text := by
  induction text with
  | nil => rfl
  | cons c text ih =>
    obtain ⟨here, later⟩ := List.forall_mem_cons.mp plain
    have same : escapeChar c = [c] := by
      have unescaped := here.2
      simp only [isEscaped, entities, List.any_cons, List.any_nil, Bool.or_false,
        Bool.or_eq_false_iff, decide_eq_false_iff_not] at unescaped
      obtain ⟨amp, lt, gt, quot, apos⟩ := unescaped
      rw [escapeChar, if_neg (Ne.symm amp), if_neg (Ne.symm lt), if_neg (Ne.symm gt),
        if_neg (Ne.symm quot), if_neg (Ne.symm apos)]
    rw [escape, List.flatMap_cons, same, ← escape, ih later]
    rfl

theorem reads_plain {text : List Char} (plain : ∀ c ∈ text, Plain c) :
    Reads text (text.map .text) := by
  have reads := reads_escape fun c membership => (plain c membership).1
  rwa [escape_of_plain plain] at reads

/-! ### Elements -/

theorem Reads.element {name : String} (valid : isName name = true)
    {attributes : List (String × String)} (validAttributes : ValidAttributes attributes)
    {inner : List Char} {nodes : List Node} (reads : Reads inner nodes) :
    Reads (openTag name attributes ++ inner ++ closeTag name)
      [.element name (normalized attributes) nodes] := by
  intro before stack
  have opened : Runs.run step ⟨.content, before, stack⟩ (openTag name attributes) =
      some ⟨.content, [], ⟨⟨name, normalized attributes⟩, before⟩ :: stack⟩ := by
    rw [openTag, run_startTag before stack valid validAttributes rfl]
    rfl
  rw [Runs.run_append, Runs.run_append, opened, Option.bind_some, reads, Option.bind_some,
    List.nil_append, run_closeTag before stack valid]

theorem Reads.empty {name : String} (valid : isName name = true)
    {attributes : List (String × String)} (validAttributes : ValidAttributes attributes) :
    Reads (emptyTag name attributes) [.element name (normalized attributes) []] := by
  intro before stack
  rw [emptyTag, run_startTag before stack valid validAttributes rfl]
  rfl

theorem read_of_reads {text : String} {body : List Char} {nodes : List Node} {node : Node}
    (whole : text.toList = declaration ++ body) (reads : Reads body nodes)
    (single : root nodes = some node) : read text = some node := by
  rw [read, whole, if_pos (List.prefix_append _ _), List.drop_left, reads [] []]
  exact single

end PqcUtils.Xml
