import Mathlib.Data.Int.Notation
import Mathlib.Data.Nat.Notation

/-!
# Reading and writing JSON

JSON texts, read one character at a time and written with an indentation of two spaces.

* `Json.Value` — values; numbers and strings are kept as they are written.
* `Json.State.step` — one character, as a partial function; `Json.read` — a whole text.
* `Json.render` — a value as indented text.
* `Json.unquote` / `Json.quote` — what a string says, and how it is written.
* `Json.readInt` / `Json.intText` — the same for integers.
-/

namespace Ultrav.Json

/-- A value, with numbers, strings and keys as they are written between their quotes. -/
inductive Value where
  | null
  | bool (b : Bool)
  | number (raw : List Char)
  | string (raw : List Char)
  | array (items : List Value)
  | object (members : List (List Char × Value))
  deriving Repr

def space (c : Char) : Bool := c = ' ' || c = '\t' || c = '\r' || c = '\n'

/-- The value of a hexadecimal digit. -/
def hexVal (c : Char) : Option ℕ :=
  if c.isDigit then some (c.toNat - '0'.toNat)
  else if 'a' ≤ c && c ≤ 'f' then some (c.toNat - 'a'.toNat + 10)
  else if 'A' ≤ c && c ≤ 'F' then some (c.toNat - 'A'.toNat + 10) else none

/-! ## Numbers -/

/-- How far a number has been read. -/
inductive Part where
  | minus
  | zero
  | int
  | dot
  | frac
  | e
  | sign
  | exp
  deriving DecidableEq, Repr

namespace Part

/-- The first character of a number. -/
def first (c : Char) : Option Part :=
  if c = '-' then some .minus else if c = '0' then some .zero
  else if c.isDigit then some .int else none

/-- A further character. -/
def next (p : Part) (c : Char) : Option Part :=
  match p with
  | .minus => if c = '0' then some .zero else if c.isDigit then some .int else none
  | .zero => if c = '.' then some .dot else if c = 'e' || c = 'E' then some .e else none
  | .int =>
    if c.isDigit then some .int
    else if c = '.' then some .dot else if c = 'e' || c = 'E' then some .e else none
  | .dot => if c.isDigit then some .frac else none
  | .frac => if c.isDigit then some .frac else if c = 'e' || c = 'E' then some .e else none
  | .e => if c = '+' || c = '-' then some .sign else if c.isDigit then some .exp else none
  | .sign => if c.isDigit then some .exp else none
  | .exp => if c.isDigit then some .exp else none

/-- The number may end here. -/
def final : Part → Bool
  | .zero | .int | .frac | .exp => true
  | _ => false

/-- Further characters. -/
def run (p : Part) : List Char → Option Part
  | [] => some p
  | c :: cs => (p.next c).bind fun q => run q cs

end Part

/-- A number. -/
def numberOk : List Char → Bool
  | [] => false
  | c :: cs => ((Part.first c).bind fun p => p.run cs).any Part.final

/-- How an integer is written. -/
def intText : ℤ → List Char
  | .ofNat n => Nat.toDigits 10 n
  | .negSucc n => '-' :: Nat.toDigits 10 (n + 1)

/-- The integer of a number without fraction and exponent. -/
def readInt : List Char → Option ℤ
  | '-' :: cs =>
    if cs ≠ [] ∧ cs.all Char.isDigit then some (-(Nat.ofDigitChars 10 cs 0 : ℤ)) else none
  | cs => if cs ≠ [] ∧ cs.all Char.isDigit then some (Nat.ofDigitChars 10 cs 0 : ℤ) else none

/-! ## Strings -/

/-- Where in an escape sequence a string is read. -/
inductive Esc where
  /-- outside of one -/
  | plain
  /-- after its backslash -/
  | slash
  /-- before so many more hexadecimal digits than one, after these -/
  | hex (left acc : ℕ)
  deriving DecidableEq, Repr

/-- The character a short escape sequence stands for. -/
def escaped (c : Char) : Option Char :=
  if c = '"' || c = '\\' || c = '/' then some c
  else if c = 'b' then some '\x08'
  else if c = 'f' then some '\x0c'
  else if c = 'n' then some '\n'
  else if c = 'r' then some '\r'
  else if c = 't' then some '\t'
  else none

/-- A character of a string, which the closing quote is not. -/
def Esc.next (e : Esc) (c : Char) : Option Esc :=
  match e with
  | .plain => if c = '"' || c.toNat < 0x20 then none else some (if c = '\\' then .slash else .plain)
  | .slash => if c = 'u' then some (.hex 3 0) else if (escaped c).isSome then some .plain else none
  | .hex left acc =>
    (hexVal c).map fun d => if left = 0 then .plain else .hex (left - 1) (acc * 16 + d)

/-- Some characters of a string. -/
def Esc.run (e : Esc) : List Char → Option Esc
  | [] => some e
  | c :: cs => (e.next c).bind fun e' => Esc.run e' cs

/-- The inside of a string. -/
def stringOk (raw : List Char) : Bool := Esc.plain.run raw = some .plain

/-- What a string says, one escape sequence at a time: characters and surrogates. -/
def units : Esc → List Char → List (Char ⊕ ℕ)
  | _, [] => []
  | .plain, c :: cs => if c = '\\' then units .slash cs else .inl c :: units .plain cs
  | .slash, c :: cs =>
    if c = 'u' then units (.hex 3 0) cs else .inl ((escaped c).getD c) :: units .plain cs
  | .hex left acc, c :: cs =>
    let n := acc * 16 + (hexVal c).getD 0
    if left = 0 then
      (if 0xD800 ≤ n && n ≤ 0xDFFF then .inr n else .inl (Char.ofNat n)) :: units .plain cs
    else units (.hex (left - 1) n) cs

/-- A high and a low surrogate are one character; others are replaced. -/
def join : List (Char ⊕ ℕ) → List Char
  | [] => []
  | .inl c :: us => c :: join us
  | [.inr _] => ['\uFFFD']
  | .inr _ :: .inl c :: us => '\uFFFD' :: c :: join us
  -- a pair is a high surrogate and then a low one; a lone one is replaced
  | .inr m :: .inr n :: us =>
    if m < 0xDC00 && 0xDC00 ≤ n then
      Char.ofNat (0x10000 + (m - 0xD800) * 0x400 + (n - 0xDC00)) :: join us
    else '\uFFFD' :: join (.inr n :: us)

/-- What a string says. -/
def unquote (raw : List Char) : String := .ofList (join (units .plain raw))

/-- A hexadecimal digit. -/
def hexDigit (n : ℕ) : Char :=
  if n < 10 then .ofNat (n + '0'.toNat) else .ofNat (n - 10 + 'a'.toNat)

/-- How a character is written: what HTML gives a meaning is escaped as well. -/
def quoteChar (c : Char) : List Char :=
  if c = '"' || c = '\\' then ['\\', c]
  else if c = '\x08' then ['\\', 'b']
  else if c = '\x0c' then ['\\', 'f']
  else if c = '\n' then ['\\', 'n']
  else if c = '\r' then ['\\', 'r']
  else if c = '\t' then ['\\', 't']
  else if c.toNat < 0x20 || c = '<' || c = '>' || c = '&' then
    ['\\', 'u', '0', '0', hexDigit (c.toNat / 16), hexDigit (c.toNat % 16)]
  else if c = '\u2028' then "\\u2028".toList
  else if c = '\u2029' then "\\u2029".toList
  else [c]

/-- How a string is written, between its quotes. -/
def quote (s : String) : List Char := s.toList.flatMap quoteChar

/-! ## The reader -/

/-- A container that is being read. -/
inductive Frame where
  | array (items : List Value)
  /-- with the key of the value that is being read -/
  | object (members : List (List Char × Value)) (key : List Char)
  deriving Repr

/-- Where the reader is. -/
inductive Mode where
  /-- before a value -/
  | value
  /-- after an opening bracket -/
  | first
  /-- before a key, after a comma -/
  | key
  /-- after a key -/
  | colon
  /-- after a value in a container -/
  | after
  /-- after the value of the text -/
  | done (v : Value)
  /-- in a string, or a key -/
  | string (isKey : Bool) (e : Esc) (raw : List Char)
  | number (p : Part) (raw : List Char)
  /-- in `true`, `false` or `null`: what is to come -/
  | literal (rest : List Char) (v : Value)
  deriving Repr

/-- The reader. -/
structure State where
  mode : Mode
  /-- the open containers, innermost first -/
  stack : List Frame
  deriving Repr

namespace State

/-- Before the text. -/
def start : State := ⟨.value, []⟩

variable (s : State)

/-- Go on in another mode. -/
def goto (m : Mode) : State := { s with mode := m }

/-- A value ends. -/
def put (v : Value) : State :=
  match s.stack with
  | [] => ⟨.done v, []⟩
  | .array items :: st => ⟨.after, .array (items ++ [v]) :: st⟩
  | .object members key :: st => ⟨.after, .object (members ++ [(key, v)]) [] :: st⟩

/-- A key ends. -/
def putKey (k : List Char) : Option State :=
  match s.stack with
  | .object members _ :: st => some ⟨.colon, .object members k :: st⟩
  | _ => none

/-- The first character of a value. -/
def stepValue (c : Char) : Option State :=
  if space c then some s
  else if c = '"' then some (s.goto (.string false .plain []))
  else if c = '[' then some ⟨.first, .array [] :: s.stack⟩
  else if c = '{' then some ⟨.first, .object [] [] :: s.stack⟩
  else if c = 't' then some (s.goto (.literal "rue".toList (.bool true)))
  else if c = 'f' then some (s.goto (.literal "alse".toList (.bool false)))
  else if c = 'n' then some (s.goto (.literal "ull".toList .null))
  else (Part.first c).map fun p => s.goto (.number p [c])

/-- The first character of a key. -/
def stepKey (c : Char) : Option State :=
  if space c then some s
  else if c = '"' then some (s.goto (.string true .plain [])) else none

/-- After an opening bracket. -/
def stepFirst (c : Char) : Option State :=
  match s.stack with
  | [] => none
  | .array items :: st =>
    if c = ']' then some ((⟨.after, st⟩ : State).put (.array items)) else s.stepValue c
  | .object members _ :: st =>
    if c = '}' then some ((⟨.after, st⟩ : State).put (.object members)) else s.stepKey c

/-- After a value. -/
def stepAfter (c : Char) : Option State :=
  if space c then some s
  else
    match s.stack with
    | [] => none
    | .array items :: st =>
      if c = ',' then some (s.goto .value)
      else if c = ']' then some ((⟨.after, st⟩ : State).put (.array items)) else none
    | .object members _ :: st =>
      if c = ',' then some (s.goto .key)
      else if c = '}' then some ((⟨.after, st⟩ : State).put (.object members)) else none

/-- In a string: the quote ends it. -/
def stepString (isKey : Bool) (e : Esc) (raw : List Char) (c : Char) : Option State :=
  if e = .plain && c = '"' then if isKey then s.putKey raw else some (s.put (.string raw))
  else (e.next c).map fun e' => s.goto (.string isKey e' (raw ++ [c]))

/-- In a number: what is not of it comes after it. -/
def stepNumber (p : Part) (raw : List Char) (c : Char) : Option State :=
  match p.next c with
  | some q => some (s.goto (.number q (raw ++ [c])))
  | none => if p.final then (s.put (.number raw)).stepAfter c else none

/-- In a literal. -/
def stepLiteral (rest : List Char) (v : Value) (c : Char) : Option State :=
  match rest with
  | [] => none
  | d :: ds =>
    if c = d then some (if ds.isEmpty then s.put v else s.goto (.literal ds v)) else none

/-- One character. -/
def step (c : Char) : Option State :=
  match s.mode with
  | .value => s.stepValue c
  | .first => s.stepFirst c
  | .key => s.stepKey c
  | .colon => if space c then some s else if c = ':' then some (s.goto .value) else none
  | .after => s.stepAfter c
  | .done _ => if space c then some s else none
  | .string isKey e raw => s.stepString isKey e raw c
  | .number p raw => s.stepNumber p raw c
  | .literal rest v => s.stepLiteral rest v c

/-- Some characters. -/
def run (s : State) : List Char → Option State
  | [] => some s
  | c :: cs => (s.step c).bind fun s' => run s' cs

/-- The text ends after its value. -/
def accept : Option Value :=
  match s.mode with
  | .done v => some v
  | .number p raw => if s.stack.isEmpty && p.final then some (.number raw) else none
  | _ => none

end State

/-- The value of a text. -/
def read (text : List Char) : Option Value := (State.start.run text).bind State.accept

/-! ## The writer -/

/-- A new line at a depth. -/
def newline (depth : ℕ) : List Char := '\n' :: List.replicate (2 * depth) ' '

mutual

/-- A value at a depth. -/
def render (depth : ℕ) : Value → List Char
  | .null => "null".toList
  | .bool b => if b then "true".toList else "false".toList
  | .number raw => raw
  | .string raw => '"' :: (raw ++ ['"'])
  | .array [] => ['[', ']']
  | .array (v :: vs) =>
    '[' :: (newline (depth + 1) ++ (render (depth + 1) v ++
      (renderItems (depth + 1) vs ++ (newline depth ++ [']']))))
  | .object [] => ['{', '}']
  | .object ((k, v) :: ms) =>
    '{' :: (newline (depth + 1) ++ ('"' :: (k ++ ('"' :: ':' :: ' ' :: (render (depth + 1) v ++
      (renderMembers (depth + 1) ms ++ (newline depth ++ ['}'])))))))

/-- Further items of an array. -/
def renderItems (depth : ℕ) : List Value → List Char
  | [] => []
  | v :: vs => ',' :: (newline depth ++ (render depth v ++ renderItems depth vs))

/-- Further members of an object. -/
def renderMembers (depth : ℕ) : List (List Char × Value) → List Char
  | [] => []
  | (k, v) :: ms =>
    ',' :: (newline depth ++ ('"' :: (k ++ ('"' :: ':' :: ' ' ::
      (render depth v ++ renderMembers depth ms)))))

end

mutual

/-- Its numbers, strings and keys can be written as they are. -/
def Value.Valid : Value → Prop
  | .number raw => numberOk raw = true
  | .string raw => stringOk raw = true
  | .array vs => validItems vs
  | .object ms => validMembers ms
  | _ => True

def validItems : List Value → Prop
  | [] => True
  | v :: vs => v.Valid ∧ validItems vs

def validMembers : List (List Char × Value) → Prop
  | [] => True
  | (k, v) :: ms => stringOk k = true ∧ v.Valid ∧ validMembers ms

end

end Ultrav.Json
