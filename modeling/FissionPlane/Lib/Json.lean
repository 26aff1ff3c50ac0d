/-
# FissionPlane.Lib.Json -- one JSON reader, several dialects

The JSON parsers of different languages share a grammar and differ at its edges: which number
literals they take, whether a string may hold a lone surrogate, how deep a text may nest, whether
`NaN` is a value. The reader here is a pushdown machine over the characters of a text for the most
permissive of them. As it goes it reports the features a dialect may object to, in the order a
parser meets them; a `Dialect` is a check on features, and parsing fails at the first feature the
check refuses or at the first character the grammar does not allow, whichever comes first.

Strings are UTF-16 code units and numbers the literals as written, since what a literal denotes is
up to the language that reads it.
-/
import Mathlib.Data.Rat.Defs
import Mathlib.Data.Rat.Cast.Order
import FissionPlane.Lib.Utf16

namespace FissionPlane.Lib

/-! ## Values -/

namespace Json

/-- A number as written: `-`, the integer part, the fraction, and the exponent with its sign. -/
structure Literal where
  negative : Bool
  whole : List Nat
  fraction : Option (List Nat)
  exponent : Option (Bool × List Nat)
  deriving DecidableEq, Repr

namespace Literal

def ofDigits (digits : List Nat) : Nat := digits.foldl (fun n d => 10 * n + d) 0

/-- A literal without fraction and exponent. -/
def isInteger (l : Literal) : Bool := l.fraction.isNone && l.exponent.isNone

/-- The magnitude of the integer part. -/
def magnitude (l : Literal) : Nat := ofDigits l.whole

/-- The value of an integer literal. -/
def toInt (l : Literal) : Int := if l.negative then -(l.magnitude : Int) else l.magnitude

/-- The value of the literal. -/
def toRat (l : Literal) : ℚ :=
  let fraction := l.fraction.getD []
  let mantissa : ℚ := ofDigits (l.whole ++ fraction) / 10 ^ fraction.length
  let scaled := match l.exponent with
    | none => mantissa
    | some (true, digits) => mantissa / 10 ^ ofDigits digits
    | some (false, digits) => mantissa * 10 ^ ofDigits digits
  if l.negative then -scaled else scaled

theorem toRat_of_isInteger {l : Literal} (h : l.isInteger = true) : l.toRat = l.toInt := by
  rw [isInteger, Bool.and_eq_true, Option.isNone_iff_eq_none, Option.isNone_iff_eq_none] at h
  simp only [toRat, toInt, magnitude, h.1, h.2, Option.getD_none, List.append_nil,
    List.length_nil, pow_zero, div_one]
  split <;> simp

end Literal

/-- The names Python reads as floats. -/
inductive Constant where
  | nan
  | infinity
  | negInfinity
  deriving DecidableEq, Repr

end Json

/-- A JSON value; an object keeps its members in the order of the text. -/
inductive Json where
  | null
  | bool (b : Bool)
  | number (l : Json.Literal)
  | constant (c : Json.Constant)
  | string (units : List Nat)
  | array (items : List Json)
  | object (fields : List (List Nat × Json))

namespace Json

/-- The code units of a text. -/
def units (s : String) : List Nat := s.toList.flatMap Utf16.encode

theorem units_inj {s t : String} : units s = units t ↔ s = t :=
  Utf16.flatMap_encode_inj.trans String.toList_inj

/-- The member of an object; the last one of a name wins. -/
def field (fields : List (List Nat × Json)) (name : String) : Option Json :=
  (fields.findRev? fun entry => entry.1 == units name).map (·.2)

/-! ## The reader -/

/-- What a dialect may object to. -/
inductive Feature where
  /-- An array or object opened at this depth. -/
  | nest (depth : Nat)
  | constant (c : Constant)
  | number (l : Literal)
  | string (units : List Nat)

/-- Where the value being read goes. -/
inductive Frame where
  | array (items : List Json)
  | object (fields : List (List Nat × Json)) (key : List Nat)

/-- What a string is read for. -/
inductive Goal where
  | value
  | key (fields : List (List Nat × Json))

inductive Escape where
  | no
  | backslash
  /-- `\u` with this many digits to come. -/
  | hex (remaining value : Nat)

inductive NumberPhase where
  | minus
  | zero
  | whole
  | point
  | fraction
  | exponent
  | exponentSign
  | exponentDigits

/-- What the reader expects next. -/
inductive Mode where
  /-- A value, or `]` right after `[`. -/
  | value (close : Bool)
  /-- A key of the object read so far, or `}` right after the opening brace. -/
  | key (fields : List (List Nat × Json)) (close : Bool)
  | colon (fields : List (List Nat × Json)) (key : List Nat)
  | string (goal : Goal) (units : List Nat) (escape : Escape)
  | number (phase : NumberPhase) (l : Literal)
  /-- The rest of a name. -/
  | word (rest : List Char) (v : Json)
  /-- What may follow a complete value. -/
  | after (v : Json)

structure State where
  stack : List Frame
  mode : Mode

/-- The features a character completes and the state after it, if the grammar has one. -/
abbrev Step := List Feature × Option State

def fail : Step := ([], none)

def goto (stack : List Frame) (mode : Mode) : Step := ([], some ⟨stack, mode⟩)

def isSpace (c : Char) : Bool := c == ' ' || c == '\t' || c == '\n' || c == '\r'

def digit? (c : Char) : Option Nat :=
  if 48 ≤ c.toNat ∧ c.toNat ≤ 57 then some (c.toNat - 48) else none

def hexDigit? (c : Char) : Option Nat :=
  if 48 ≤ c.toNat ∧ c.toNat ≤ 57 then some (c.toNat - 48)
  else if 97 ≤ c.toNat ∧ c.toNat ≤ 102 then some (c.toNat - 87)
  else if 65 ≤ c.toNat ∧ c.toNat ≤ 70 then some (c.toNat - 55)
  else none

/-- `"`, which closes a string. -/
def isQuote (c : Char) : Bool := c.toNat == 0x22
def isBackslash (c : Char) : Bool := c.toNat == 0x5C

/-- The code unit of a one-letter escape. -/
def escapeUnit? (c : Char) : Option Nat :=
  if isQuote c || isBackslash c || c == '/' then some c.toNat
  else if c == 'b' then some 0x08
  else if c == 'f' then some 0x0C
  else if c == 'n' then some 0x0A
  else if c == 'r' then some 0x0D
  else if c == 't' then some 0x09
  else none

/-- After a complete value: more of the container it is in, or its end. -/
def afterStep (stack : List Frame) (v : Json) (c : Char) : Option State :=
  if isSpace c then some ⟨stack, .after v⟩
  else
    match stack with
    | [] => none
    | .array items :: stack =>
        if c = ',' then some ⟨.array (items ++ [v]) :: stack, .value false⟩
        else if c = ']' then some ⟨stack, .after (.array (items ++ [v]))⟩
        else none
    | .object fields key :: stack =>
        if c = ',' then some ⟨stack, .key (fields ++ [(key, v)]) false⟩
        else if c = '}' then some ⟨stack, .after (.object (fields ++ [(key, v)]))⟩
        else none

def valueStep (stack : List Frame) (close : Bool) (c : Char) : Step :=
  let depth := stack.length + 1
  if isSpace c then goto stack (.value close)
  else if c = '{' then ([.nest depth], some ⟨stack, .key [] true⟩)
  else if c = '[' then ([.nest depth], some ⟨.array [] :: stack, .value true⟩)
  else if isQuote c then goto stack (.string .value [] .no)
  else if c = '-' then goto stack (.number .minus ⟨true, [], none, none⟩)
  else if c = '0' then goto stack (.number .zero ⟨false, [0], none, none⟩)
  else if c = 't' then goto stack (.word ['r', 'u', 'e'] (.bool true))
  else if c = 'f' then goto stack (.word ['a', 'l', 's', 'e'] (.bool false))
  else if c = 'n' then goto stack (.word ['u', 'l', 'l'] .null)
  -- Python's constants; a dialect without them refuses the feature
  else if c = 'N' then goto stack (.word ['a', 'N'] (.constant .nan))
  else if c = 'I' then
    goto stack (.word ['n', 'f', 'i', 'n', 'i', 't', 'y'] (.constant .infinity))
  else
    match digit? c, close, stack with
    | some d, _, _ => goto stack (.number .whole ⟨false, [d], none, none⟩)
    | none, true, .array items :: stack =>
        if c = ']' then goto stack (.after (.array items)) else fail
    | none, _, _ => fail

def keyStep (stack : List Frame) (fields : List (List Nat × Json)) (close : Bool) (c : Char) :
    Step :=
  if isSpace c then goto stack (.key fields close)
  else if isQuote c then goto stack (.string (.key fields) [] .no)
  else if c = '}' && close then goto stack (.after (.object fields))
  else fail

def colonStep (stack : List Frame) (fields : List (List Nat × Json)) (key : List Nat) (c : Char) :
    Step :=
  if isSpace c then goto stack (.colon fields key)
  else if c = ':' then goto (.object fields key :: stack) (.value false)
  else fail

def stringStep (stack : List Frame) (goal : Goal) (text : List Nat) (escape : Escape) (c : Char) :
    Step :=
  match escape with
  | .no =>
      if isQuote c then
        match goal with
        | .value => ([.string text], some ⟨stack, .after (.string text)⟩)
        | .key fields => ([.string text], some ⟨stack, .colon fields text⟩)
      else if isBackslash c then goto stack (.string goal text .backslash)
      -- control characters have to be escaped
      else if c.toNat < 0x20 then fail
      else goto stack (.string goal (text ++ Utf16.encode c) .no)
  | .backslash =>
      if c = 'u' then goto stack (.string goal text (.hex 4 0))
      else
        match escapeUnit? c with
        | some u => goto stack (.string goal (text ++ [u]) .no)
        | none => fail
  | .hex remaining value =>
      match hexDigit? c with
      | none => fail
      | some d =>
          -- an escape denotes one code unit, which may be a lone surrogate
          if remaining ≤ 1 then goto stack (.string goal (text ++ [16 * value + d]) .no)
          else goto stack (.string goal text (.hex (remaining - 1) (16 * value + d)))

/-- A number ends at the first character that does not continue it. -/
def numberEnd (stack : List Frame) (l : Literal) (c : Char) : Step :=
  ([.number l], afterStep stack (.number l) c)

/-- A literal that breaks off has been read up to its last complete part. -/
def numberBreak (l : Literal) : Step := ([.number l], none)

def isExponent (c : Char) : Bool := c == 'e' || c == 'E'

def numberStep (stack : List Frame) (phase : NumberPhase) (l : Literal) (c : Char) : Step :=
  match phase, digit? c with
  | .minus, some 0 => goto stack (.number .zero { l with whole := [0] })
  | .minus, some d => goto stack (.number .whole { l with whole := [d] })
  | .minus, none =>
      if c = 'I' then
        goto stack (.word ['n', 'f', 'i', 'n', 'i', 't', 'y'] (.constant .negInfinity))
      else fail
  | .whole, some d => goto stack (.number .whole { l with whole := l.whole ++ [d] })
  | .zero, _ | .whole, none =>
      if c = '.' then goto stack (.number .point l)
      else if isExponent c then goto stack (.number .exponent l)
      else numberEnd stack l c
  | .point, some d => goto stack (.number .fraction { l with fraction := some [d] })
  | .point, none => numberBreak l
  | .fraction, some d =>
      goto stack (.number .fraction { l with fraction := l.fraction.map (· ++ [d]) })
  | .fraction, none =>
      if isExponent c then goto stack (.number .exponent l) else numberEnd stack l c
  | .exponent, some d =>
      goto stack (.number .exponentDigits { l with exponent := some (false, [d]) })
  | .exponent, none =>
      if c = '+' || c = '-' then
        goto stack (.number .exponentSign { l with exponent := some (c = '-', []) })
      else numberBreak l
  | .exponentSign, some d | .exponentDigits, some d =>
      goto stack (.number .exponentDigits
        { l with exponent := l.exponent.map fun e => (e.1, e.2 ++ [d]) })
  -- the mantissa was complete before the sign
  | .exponentSign, none => numberBreak { l with exponent := none }
  | .exponentDigits, none => numberEnd stack l c

def wordStep (stack : List Frame) (rest : List Char) (v : Json) (c : Char) : Step :=
  match rest, v with
  | [last], .constant k =>
      if c = last then ([.constant k], some ⟨stack, .after v⟩) else fail
  | [last], v => if c = last then goto stack (.after v) else fail
  | next :: rest, v => if c = next then goto stack (.word rest v) else fail
  | [], _ => fail

/-- One character of the text. -/
def State.step (s : State) (c : Char) : Step :=
  match s.mode with
  | .value close => valueStep s.stack close c
  | .key fields close => keyStep s.stack fields close c
  | .colon fields key => colonStep s.stack fields key c
  | .string goal text escape => stringStep s.stack goal text escape c
  | .number phase l => numberStep s.stack phase l c
  | .word rest v => wordStep s.stack rest v c
  | .after v => ([], afterStep s.stack v c)

/-- The end of the text: a value is complete when no container is open around it. -/
def State.finish (s : State) : List Feature × Option Json :=
  match s.mode, s.stack with
  | .after v, [] => ([], some v)
  | .number .minus _, _ => ([], none)
  | .number .exponentSign l, _ => ([.number { l with exponent := none }], none)
  | .number .point l, _ | .number .exponent l, _ => ([.number l], none)
  | .number _ l, stack => ([.number l], if stack.isEmpty then some (.number l) else none)
  | _, _ => ([], none)

/-- The rest of a text: the features met up to its end or its first error, and its value. -/
def scan : State → List Char → List Feature × Option Json
  | s, [] => s.finish
  | s, c :: cs =>
      match s.step c with
      | (features, none) => (features, none)
      | (features, some t) =>
          let rest := scan t cs
          (features ++ rest.1, rest.2)

/-- A whole text. -/
def read (text : List Char) : List Feature × Option Json := scan ⟨[], .value false⟩ text

/-! ## Dialects -/

/-- A parser of the grammar: what it makes of a feature, and its error for a text outside the
grammar. -/
structure Dialect (ε : Type) where
  malformed : ε
  check : Feature → Except ε Unit

variable {ε : Type}

/-- The first feature the dialect refuses, in the order of the text. -/
def Dialect.checkAll (d : Dialect ε) : List Feature → Except ε Unit
  | [] => .ok ()
  | f :: features =>
      match d.check f with
      | .error e => .error e
      | .ok () => d.checkAll features

def Dialect.parse (d : Dialect ε) (text : List Char) : Except ε Json :=
  match d.checkAll (read text).1, (read text).2 with
  | .error e, _ => .error e
  | .ok (), some v => .ok v
  | .ok (), none => .error d.malformed

theorem Dialect.checkAll_eq_ok {d : Dialect ε} {features : List Feature}
    (h : ∀ f ∈ features, d.check f = .ok ()) : d.checkAll features = .ok () := by
  induction features with
  | nil => rfl
  | cons f features ih =>
      rw [Dialect.checkAll, h f List.mem_cons_self]
      exact ih fun g hg => h g (List.mem_cons_of_mem f hg)

/-- A dialect that accepts every feature of a text parses it as the grammar reads it. -/
theorem Dialect.parse_of_check {d : Dialect ε} {text : List Char} {v : Json}
    (h : ∀ f ∈ (read text).1, d.check f = .ok ()) (hv : (read text).2 = some v) :
    d.parse text = .ok v := by
  rw [Dialect.parse, Dialect.checkAll_eq_ok h, hv]

/-- Where a dialect accepts every feature up to the error, the error is the grammar's. -/
theorem Dialect.parse_malformed {d : Dialect ε} {text : List Char}
    (h : ∀ f ∈ (read text).1, d.check f = .ok ()) (hv : (read text).2 = none) :
    d.parse text = .error d.malformed := by
  rw [Dialect.parse, Dialect.checkAll_eq_ok h, hv]

/-- No dialect parses a text outside the grammar. -/
theorem Dialect.parse_of_read_none {d : Dialect ε} {text : List Char}
    (hv : (read text).2 = none) : ∃ e, d.parse text = .error e := by
  rw [Dialect.parse, hv]
  cases d.checkAll (read text).1 with
  | ok _ => exact ⟨d.malformed, rfl⟩
  | error e => exact ⟨e, rfl⟩

end Json

end FissionPlane.Lib
