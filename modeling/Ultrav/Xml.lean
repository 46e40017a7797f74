import Mathlib.Data.Nat.Notation

/-!
# Reading XML documents

XML 1.0 documents without a document type, read one character at a time.

* `Xml.Event` — what a document says, in order: tags, attributes, characters.
* `Xml.State.step` — one character, as a partial function.
* `Xml.scan` — a whole document.
* `Xml.Node` / `Node.events` — element trees, and the events they stand for.
* `Xml.Parses` — the document is that element.

References go to the five predefined entities and to characters. Comments, processing
instructions and CDATA sections are read; what an XML declaration says is not looked at.
The log of a state is newest first.
-/

namespace Ultrav.Xml

/-! ## Characters -/

/-- `Char` of the grammar. -/
def legal (c : Char) : Bool :=
  c = '\t' || c = '\n' || c = '\r' || (0x20 ≤ c.toNat && c.toNat ≤ 0xFFFD) || 0x10000 ≤ c.toNat

/-- White space, once line ends are normalised. -/
def space (c : Char) : Bool := c = ' ' || c = '\t' || c = '\n'

/-- The ranges of `NameStartChar`. -/
def nameStartRanges : List (ℕ × ℕ) :=
  [(0x3A, 0x3A), (0x41, 0x5A), (0x5F, 0x5F), (0x61, 0x7A), (0xC0, 0xD6), (0xD8, 0xF6),
    (0xF8, 0x2FF), (0x370, 0x37D), (0x37F, 0x1FFF), (0x200C, 0x200D), (0x2070, 0x218F),
    (0x2C00, 0x2FEF), (0x3001, 0xD7FF), (0xF900, 0xFDCF), (0xFDF0, 0xFFFD), (0x10000, 0xEFFFF)]

/-- The further ranges of `NameChar`. -/
def nameRanges : List (ℕ × ℕ) :=
  [(0x2D, 0x2E), (0x30, 0x39), (0xB7, 0xB7), (0x300, 0x36F), (0x203F, 0x2040)]

/-- A character within ranges. -/
def within (ranges : List (ℕ × ℕ)) (c : Char) : Bool :=
  ranges.any fun r => r.1 ≤ c.toNat && c.toNat ≤ r.2

def nameStart (c : Char) : Bool := within nameStartRanges c

def nameChar (c : Char) : Bool := nameStart c || within nameRanges c

/-- Line ends are read as line feeds. -/
def normalize : List Char → List Char
  | [] => []
  | '\r' :: '\n' :: cs => '\n' :: normalize cs
  | '\r' :: cs => '\n' :: normalize cs
  | c :: cs => c :: normalize cs

/-- The digits of a character reference. -/
def number (base : ℕ) (digit : Char → Option ℕ) : List Char → Option ℕ
  | [] => none
  | cs => cs.foldlM (fun n c => (digit c).map fun d => n * base + d) 0

def decDigit (c : Char) : Option ℕ :=
  if '0' ≤ c && c ≤ '9' then some (c.toNat - '0'.toNat) else none

def hexDigit (c : Char) : Option ℕ :=
  if 'a' ≤ c && c ≤ 'f' then some (c.toNat - 'a'.toNat + 10)
  else if 'A' ≤ c && c ≤ 'F' then some (c.toNat - 'A'.toNat + 10) else decDigit c

/-- The character of a number, if it is a legal one. -/
def charOf (n : ℕ) : Option Char :=
  if n.isValidChar then some (Char.ofNat n) |>.filter legal else none

/-- What a reference stands for, without its ampersand and semicolon. -/
def reference (buf : List Char) : Option Char :=
  match buf with
  | '#' :: 'x' :: cs => (number 16 hexDigit cs).bind charOf
  | '#' :: cs => (number 10 decDigit cs).bind charOf
  | _ =>
    if buf = "lt".toList then some '<'
    else if buf = "gt".toList then some '>'
    else if buf = "amp".toList then some '&'
    else if buf = "apos".toList then some '\''
    else if buf = "quot".toList then some '"'
    else none

/-! ## The reader -/

/-- What a document says. -/
inductive Event where
  /-- a start tag opens -/
  | start (name : String)
  | attr (name value : String)
  /-- character data -/
  | char (c : Char)
  /-- an element ends; whether it had content -/
  | finish (name : String) (content : Bool)
  deriving DecidableEq, Repr

/-- Where the reader is. -/
inductive Mode where
  /-- at the first character -/
  | begin
  /-- in character data, after so many closing brackets, at most two -/
  | text (brackets : ℕ)
  | textRef (buf : List Char)
  /-- after `<`; whether that is the first character -/
  | markup (first : Bool)
  /-- after `<!` -/
  | bang (buf : List Char)
  /-- in a comment, after so many dashes -/
  | comment (dashes : ℕ)
  /-- in a CDATA section, after so many closing brackets, at most two -/
  | cdata (brackets : ℕ)
  /-- in the target of a processing instruction -/
  | target (first : Bool) (buf : List Char)
  /-- in a processing instruction, after a question mark -/
  | instruction (mark : Bool)
  /-- in the name of a start tag -/
  | startName (buf : List Char)
  /-- in a start tag with these attributes, after white space -/
  | tag (attrs : List String) (gap : Bool)
  | attrName (attrs : List String) (buf : List Char)
  /-- after the name of an attribute, before or after the equals sign -/
  | attrEq (attrs : List String) (name : String) (eq : Bool)
  /-- in the value of an attribute; whether its quotes are double ones -/
  | value (attrs : List String) (name : String) (double : Bool) (buf : List Char)
  | valueRef (attrs : List String) (name : String) (double : Bool) (v buf : List Char)
  /-- after the slash of an empty element -/
  | emptyTag
  | endName (buf : List Char)
  /-- after the name of an end tag -/
  | endTag (name : String)
  deriving DecidableEq, Repr

/-- The reader. -/
structure State where
  mode : Mode
  /-- the open elements, innermost first; whether each has content -/
  stack : List (String × Bool)
  /-- the root element has ended -/
  done : Bool
  /-- what was read, newest first -/
  log : List Event
  deriving DecidableEq, Repr

namespace State

/-- Before the document. -/
def start : State := ⟨.begin, [], false, []⟩

variable (s : State)

/-- Go on in another mode. -/
def goto (m : Mode) : State := { s with mode := m }

/-- The innermost open element has content. -/
def fill : List (String × Bool) → List (String × Bool)
  | [] => []
  | (n, _) :: rest => (n, true) :: rest

/-- Character data. -/
def char (c : Char) : State := { s with stack := fill s.stack, log := .char c :: s.log }

/-- A start tag opens. -/
def opened (name : String) : State :=
  { s with stack := (name, false) :: fill s.stack, log := .start name :: s.log }

/-- An end tag. -/
def closed (name : String) : Option State :=
  match s.stack with
  | [] => none
  | (m, content) :: rest =>
    if m = name then
      some ⟨.text 0, rest, rest.isEmpty, .finish name content :: s.log⟩
    else none

/-- The end of an empty-element tag. -/
def closedEmpty : Option State :=
  match s.stack with
  | [] => none
  | (m, _) :: rest => some ⟨.text 0, rest, rest.isEmpty, .finish m false :: s.log⟩

/-- The reserved targets. -/
def reserved (target : List Char) : Bool :=
  target.map Char.toLower = "xml".toList

/-- Character data, and what ends it. -/
def stepText (brackets : ℕ) (first : Bool) (c : Char) : Option State :=
  if c = '<' then some (s.goto (.markup first))
  else if s.stack.isEmpty then if space c then some (s.goto (.text 0)) else none
  else if c = '&' then some (s.goto (.textRef []))
  -- `]]>` is not allowed in character data
  else if c = '>' && brackets = 2 then none
  else some ((s.char c).goto (.text (if c = ']' then min 2 (brackets + 1) else 0)))

/-- After `<`. -/
def stepMarkup (first : Bool) (c : Char) : Option State :=
  if c = '/' then some (s.goto (.endName []))
  else if c = '!' then some (s.goto (.bang []))
  else if c = '?' then some (s.goto (.target first []))
  else if nameStart c && !s.done then some (s.goto (.startName [c]))
  else none

/-- After `<!`: a comment or a CDATA section. -/
def stepBang (buf : List Char) : Option State :=
  if buf = "--".toList then some (s.goto (.comment 0))
  else if buf = "[CDATA[".toList then if s.stack.isEmpty then none else some (s.goto (.cdata 0))
  else if buf.isPrefixOf "--".toList || buf.isPrefixOf "[CDATA[".toList then
    some (s.goto (.bang buf))
  else none

/-- In a comment: two dashes end it. -/
def stepComment (dashes : ℕ) (c : Char) : Option State :=
  if dashes = 2 then if c = '>' then some (s.goto (.text 0)) else none
  else some (s.goto (.comment (if c = '-' then dashes + 1 else 0)))

/-- So many closing brackets that did not end a CDATA section. -/
def brackets (s : State) : ℕ → State
  | 0 => s
  | n + 1 => (brackets s n).char ']'

/-- In a CDATA section. -/
def stepCdata (k : ℕ) (c : Char) : Option State :=
  if c = ']' then
    if k = 2 then some ((s.char ']').goto (.cdata 2)) else some (s.goto (.cdata (k + 1)))
  else if c = '>' && k = 2 then some (s.goto (.text 0))
  else some (((s.brackets k).char c).goto (.cdata 0))

/-- In the target of a processing instruction. -/
def stepTarget (first : Bool) (buf : List Char) (c : Char) : Option State :=
  if buf.isEmpty then if nameStart c then some (s.goto (.target first [c])) else none
  else if nameChar c then some (s.goto (.target first (buf ++ [c])))
  -- an XML declaration stands at the start of the document only
  else if reserved buf && !first then none
  else if space c then some (s.goto (.instruction false))
  else if c = '?' then some (s.goto (.instruction true))
  else none

/-- In the name of a start tag. -/
def stepStartName (buf : List Char) (c : Char) : Option State :=
  if nameChar c then some (s.goto (.startName (buf ++ [c])))
  else if space c then some ((s.opened (.ofList buf)).goto (.tag [] true))
  else if c = '>' then some ((s.opened (.ofList buf)).goto (.text 0))
  else if c = '/' then some ((s.opened (.ofList buf)).goto .emptyTag)
  else none

/-- Between the attributes of a start tag. -/
def stepTag (attrs : List String) (gap : Bool) (c : Char) : Option State :=
  if space c then some (s.goto (.tag attrs true))
  else if c = '>' then some (s.goto (.text 0))
  else if c = '/' then some (s.goto .emptyTag)
  else if nameStart c && gap then some (s.goto (.attrName attrs [c]))
  else none

/-- In the name of an attribute; no name comes twice. -/
def stepAttrName (attrs : List String) (buf : List Char) (c : Char) : Option State :=
  if nameChar c then some (s.goto (.attrName attrs (buf ++ [c])))
  else if attrs.contains (.ofList buf) then none
  else if space c then some (s.goto (.attrEq attrs (.ofList buf) false))
  else if c = '=' then some (s.goto (.attrEq attrs (.ofList buf) true))
  else none

/-- Before the value of an attribute. -/
def stepAttrEq (attrs : List String) (name : String) (eq : Bool) (c : Char) : Option State :=
  if space c then some (s.goto (.attrEq attrs name eq))
  else if c = '=' && !eq then some (s.goto (.attrEq attrs name true))
  else if c = '\'' && eq then some (s.goto (.value attrs name false []))
  else if c = '"' && eq then some (s.goto (.value attrs name true []))
  else none

/-- In the value of an attribute: white space is read as spaces. -/
def stepValue (attrs : List String) (name : String) (double : Bool) (buf : List Char) (c : Char) :
    Option State :=
  if c = if double then '"' else '\'' then
    some ({ s with log := .attr name (.ofList buf) :: s.log }.goto (.tag (name :: attrs) false))
  else if c = '<' then none
  else if c = '&' then some (s.goto (.valueRef attrs name double buf []))
  else some (s.goto (.value attrs name double (buf ++ [if space c then ' ' else c])))

/-- In the name of an end tag. -/
def stepEndName (buf : List Char) (c : Char) : Option State :=
  if nameChar c then some (s.goto (.endName (buf ++ [c])))
  else if space c then some (s.goto (.endTag (.ofList buf)))
  else if c = '>' then s.closed (.ofList buf)
  else none

/-- One character. -/
def step (c : Char) : Option State :=
  if !legal c || c = '\r' then none
  else
    match s.mode with
    | .begin => s.stepText 0 true c
    | .text k => s.stepText k false c
    | .textRef buf =>
      if c = ';' then (reference buf).map fun d => (s.char d).goto (.text 0)
      else some (s.goto (.textRef (buf ++ [c])))
    | .markup first => s.stepMarkup first c
    | .bang buf => s.stepBang (buf ++ [c])
    | .comment k => s.stepComment k c
    | .cdata k => s.stepCdata k c
    | .target first buf => s.stepTarget first buf c
    | .instruction mark =>
      some (s.goto (if c = '>' && mark then .text 0 else .instruction (c = '?')))
    | .startName buf => s.stepStartName buf c
    | .tag attrs gap => s.stepTag attrs gap c
    | .attrName attrs buf => s.stepAttrName attrs buf c
    | .attrEq attrs name eq => s.stepAttrEq attrs name eq c
    | .value attrs name double buf => s.stepValue attrs name double buf c
    | .valueRef attrs name double v buf =>
      if c = ';' then (reference buf).map fun d => s.goto (.value attrs name double (v ++ [d]))
      else some (s.goto (.valueRef attrs name double v (buf ++ [c])))
    | .emptyTag => if c = '>' then s.closedEmpty else none
    | .endName buf => s.stepEndName buf c
    | .endTag name =>
      if space c then some s else if c = '>' then s.closed name else none

/-- Some characters. -/
def run (s : State) : List Char → Option State
  | [] => some s
  | c :: cs => (s.step c).bind fun s' => run s' cs

/-- The document ends after its root element. -/
def accept : Option (List Event) :=
  match s.mode with
  | .text _ => if s.stack.isEmpty && s.done then some s.log.reverse else none
  | _ => none

end State

/-- What a document says, if it is well formed. -/
def scan (doc : String) : Option (List Event) :=
  (State.start.run (normalize doc.toList)).bind State.accept

/-! ## Trees -/

/-- An element tree. -/
inductive Node where
  | element (name : String) (attrs : List (String × String)) (children : List Node)
  | text (s : String)

mutual

/-- What a tree says. -/
def Node.events : Node → List Event
  | .element name attrs children =>
    .start name :: (attrs.map fun a => .attr a.1 a.2) ++
      (eventsAll children ++ [.finish name !(eventsAll children).isEmpty])
  | .text s => s.toList.map .char

/-- What trees say one after the other. -/
def eventsAll : List Node → List Event
  | [] => []
  | n :: ns => n.events ++ eventsAll ns

end

/-- The document is this element. -/
def Parses (doc : String) (root : Node) : Prop := scan doc = some root.events

instance (doc : String) (root : Node) : Decidable (Parses doc root) :=
  inferInstanceAs (Decidable (_ = _))

end Ultrav.Xml
