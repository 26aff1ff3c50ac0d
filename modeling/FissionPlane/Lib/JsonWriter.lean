/-
# FissionPlane.Lib.JsonWriter -- documents as JSON text

A writer prints a document without white space. Writers differ in how they write a string: a
`Quoting` is any way of writing one that the reader takes back, unit for unit. Whatever the quoting,
the text of a document reads as that document (`read_write`).
-/
import FissionPlane.Lib.Json
import Mathlib.Data.List.Nodup

namespace FissionPlane.Lib.Json

/-! ## Documents -/

/-- What programs send: strings are sequences of code units, numbers are integers. -/
inductive Document where
  | null
  | bool (b : Bool)
  | int (n : Int)
  | string (units : List UInt16)
  | array (items : List Document)
  | object (fields : List (List UInt16 × Document))

/-- The literal an integer is printed as. -/
def intLiteral (n : Int) : Literal :=
  ⟨decide (n < 0), (Nat.toDigits 10 n.natAbs).map fun c => c.toNat - 48, none, none⟩

mutual

/-- The document as a value. -/
def Document.toJson : Document → Json
  | .null => .null
  | .bool b => .bool b
  | .int n => .number (intLiteral n)
  | .string units => .string (units.map UInt16.toNat)
  | .array items => .array (itemsToJson items)
  | .object fields => .object (fieldsToJson fields)

def itemsToJson : List Document → List Json
  | [] => []
  | item :: items => item.toJson :: itemsToJson items

def fieldsToJson : List (List UInt16 × Document) → List (List Nat × Json)
  | [] => []
  | (key, value) :: fields => (key.map UInt16.toNat, value.toJson) :: fieldsToJson fields

end

mutual

/-- What a dialect sees of a document at this depth, in the order of its text. -/
def Document.features (depth : Nat) : Document → List Feature
  | .null => []
  | .bool _ => []
  | .int n => [.number (intLiteral n)]
  | .string units => [.string (units.map UInt16.toNat)]
  | .array items => .nest depth :: itemsFeatures (depth + 1) items
  | .object fields => .nest depth :: fieldsFeatures (depth + 1) fields

def itemsFeatures (depth : Nat) : List Document → List Feature
  | [] => []
  | item :: items => item.features depth ++ itemsFeatures depth items

def fieldsFeatures (depth : Nat) : List (List UInt16 × Document) → List Feature
  | [] => []
  | (key, value) :: fields =>
      .string (key.map UInt16.toNat) :: (value.features depth ++ fieldsFeatures depth fields)

end

/-! ## What the scanner makes of a text -/

/-- A reading of the rest of a text, behind the features met before it. -/
def behind (features : List Feature) (rest : List Feature × Option Json) :
    List Feature × Option Json := (features ++ rest.1, rest.2)

theorem behind_behind (before features : List Feature) (rest : List Feature × Option Json) :
    behind before (behind features rest) = behind (before ++ features) rest := by
  rw [behind, behind, behind, List.append_assoc]

theorem scan_cons {s t : State} {c : Char} {features : List Feature} {text : List Char}
    (h : s.step c = (features, some t)) : scan s (c :: text) = behind features (scan t text) := by
  rw [scan, h]
  rfl

/-- Most characters complete no feature. -/
theorem scan_step {s t : State} {c : Char} {text : List Char} (h : s.step c = ([], some t)) :
    scan s (c :: text) = scan t text := scan_cons h

/-! ## Quoting -/

/-- A way of writing the inside of a string. -/
structure Quoting where
  quote : List UInt16 → List Char
  reads : ∀ (units : List UInt16) (stack : List Frame) (goal : Goal) (text : List Nat)
    (rest : List Char), scan ⟨stack, .string goal text .no⟩ (quote units ++ rest) =
      scan ⟨stack, .string goal (text ++ units.map UInt16.toNat) .no⟩ rest

/-- A lower-case hexadecimal digit. -/
def lowerHex (n : Nat) : Char := Char.ofNat (if n < 10 then 48 + n else 87 + n)

/-- `\uXXXX` -/
def hexEscape (n : Nat) : List Char :=
  ['\\', 'u', lowerHex (n / 4096), lowerHex (n / 256 % 16), lowerHex (n / 16 % 16),
    lowerHex (n % 16)]

/-- The letter of a two-character escape. -/
def shortEscape? (n : Nat) : Option Char :=
  if n = 0x22 then some (Char.ofNat 0x22)
  else if n = 0x5C then some '\\'
  else if n = 0x08 then some 'b'
  else if n = 0x09 then some 't'
  else if n = 0x0A then some 'n'
  else if n = 0x0C then some 'f'
  else if n = 0x0D then some 'r'
  else none

/-- Escape a code point in two characters where there is a letter for it, and by its number where
`escaped` says so. -/
def writePoint (escaped : Nat → Bool) (n : Nat) : List Char :=
  match shortEscape? n with
  | some c => ['\\', c]
  | none => if escaped n then hexEscape n else [Char.ofNat n]

def isSurrogate (n : Nat) : Bool := decide (0xD800 ≤ n) && decide (n ≤ 0xDFFF)

/-- `JSON.stringify` and `serde_json`: control characters are escaped, and so is a surrogate without
its partner. -/
def stringifyEscaped (n : Nat) : Bool := decide (n < 0x20) || isSurrogate n

/-- Python's `json.dumps`: everything but printable ASCII is escaped, unit by unit. -/
def asciiEscaped (n : Nat) : Bool := decide (n < 0x20) || decide (0x7E < n)

section Reading

variable (stack : List Frame) (goal : Goal) (text : List Nat) (rest : List Char)

theorem hexDigit?_lowerHex {n : Nat} (h : n < 16) : hexDigit? (lowerHex n) = some n := by
  have hall : ∀ m ∈ List.range 16, hexDigit? (lowerHex m) = some m := by decide
  exact hall n (List.mem_range.mpr h)

theorem scan_backslash :
    scan ⟨stack, .string goal text .no⟩ ('\\' :: rest) =
      scan ⟨stack, .string goal text .backslash⟩ rest :=
  scan_step rfl

/-- A digit of an escape that is not its last. -/
theorem scan_hexDigit {remaining value d : Nat} (h : d < 16) (hr : 1 < remaining) :
    scan ⟨stack, .string goal text (.hex remaining value)⟩ (lowerHex d :: rest) =
      scan ⟨stack, .string goal text (.hex (remaining - 1) (16 * value + d))⟩ rest := by
  apply scan_step
  show stringStep stack goal text (.hex remaining value) (lowerHex d) = _
  rw [stringStep, hexDigit?_lowerHex h]
  dsimp only
  rw [if_neg (by omega)]
  rfl

theorem scan_lastHexDigit {value d : Nat} (h : d < 16) :
    scan ⟨stack, .string goal text (.hex 1 value)⟩ (lowerHex d :: rest) =
      scan ⟨stack, .string goal (text ++ [16 * value + d]) .no⟩ rest := by
  apply scan_step
  show stringStep stack goal text (.hex 1 value) (lowerHex d) = _
  rw [stringStep, hexDigit?_lowerHex h]
  rfl

theorem scan_hexEscape {n : Nat} (h : n < 0x10000) :
    scan ⟨stack, .string goal text .no⟩ (hexEscape n ++ rest) =
      scan ⟨stack, .string goal (text ++ [n]) .no⟩ rest := by
  have hu : scan ⟨stack, .string goal text .backslash⟩
      ('u' :: lowerHex (n / 4096) :: lowerHex (n / 256 % 16) :: lowerHex (n / 16 % 16) ::
        lowerHex (n % 16) :: rest) =
      scan ⟨stack, .string goal text (.hex 4 0)⟩
        (lowerHex (n / 4096) :: lowerHex (n / 256 % 16) :: lowerHex (n / 16 % 16) ::
          lowerHex (n % 16) :: rest) := scan_step rfl
  have hvalue :
      16 * (16 * (16 * (16 * 0 + n / 4096) + n / 256 % 16) + n / 16 % 16) + n % 16 = n := by
    omega
  rw [hexEscape]
  simp only [List.cons_append, List.nil_append]
  rw [scan_backslash, hu, scan_hexDigit _ _ _ _ (by omega) (by decide),
    scan_hexDigit _ _ _ _ (by omega) (by decide), scan_hexDigit _ _ _ _ (by omega) (by decide),
    scan_lastHexDigit _ _ _ _ (by omega), hvalue]

/-- A short escape stands for the code point it is the letter of. -/
theorem shortEscape?_read {n : Nat} {c : Char} (h : shortEscape? n = some c) :
    c ≠ 'u' ∧ escapeUnit? c = some n := by
  rw [shortEscape?] at h
  split_ifs at h with h1 h2 h3 h4 h5 h6 h7
  all_goals
    obtain rfl := Option.some.inj h
    subst n
    decide

theorem scan_shortEscape {n : Nat} {c : Char} (h : shortEscape? n = some c) :
    scan ⟨stack, .string goal text .no⟩ ('\\' :: c :: rest) =
      scan ⟨stack, .string goal (text ++ [n]) .no⟩ rest := by
  obtain ⟨hu, hunit⟩ := shortEscape?_read h
  rw [scan_backslash]
  apply scan_step
  show stringStep stack goal text .backslash c = _
  rw [stringStep, if_neg hu, hunit]
  rfl

/-- A character that is no delimiter of a string and no control character stands for itself. -/
theorem scan_plain {c : Char} (hquote : c.toNat ≠ 0x22) (hbackslash : c.toNat ≠ 0x5C)
    (hcontrol : 0x20 ≤ c.toNat) :
    scan ⟨stack, .string goal text .no⟩ (c :: rest) =
      scan ⟨stack, .string goal (text ++ Utf16.encode c) .no⟩ rest := by
  apply scan_step
  show stringStep stack goal text .no c = _
  unfold stringStep
  dsimp only
  rw [isQuote, isBackslash, if_neg (by simpa using hquote), if_neg (by simpa using hbackslash),
    if_neg (by omega)]
  rfl

theorem toNat_ofNat_point {n : Nat} (h : n < 0xD800 ∨ 0xDFFF < n ∧ n < 0x110000) :
    (Char.ofNat n).toNat = n := by
  have hvalid : n.isValidChar := h
  rw [Char.ofNat, dif_pos hvalid]
  rfl

/-- A code point that is written reads as its units. -/
theorem scan_writePoint {escaped : Nat → Bool} {n : Nat} {units : List Nat}
    (hescaped : escaped n = true → n < 0x10000 ∧ units = [n])
    (hshort : (shortEscape? n).isSome → units = [n])
    (hplain : escaped n = false → shortEscape? n = none →
      0x20 ≤ n ∧ (n < 0xD800 ∨ 0xDFFF < n ∧ n < 0x110000) ∧ units = Utf16.encode (Char.ofNat n)) :
    scan ⟨stack, .string goal text .no⟩ (writePoint escaped n ++ rest) =
      scan ⟨stack, .string goal (text ++ units) .no⟩ rest := by
  rw [writePoint]
  cases hs : shortEscape? n with
  | some c =>
      rw [hshort (by rw [hs]; rfl)]
      exact scan_shortEscape stack goal text rest hs
  | none =>
      dsimp only
      cases he : escaped n with
      | true =>
          obtain ⟨hlt, rfl⟩ := hescaped he
          rw [if_pos rfl]
          exact scan_hexEscape stack goal text rest hlt
      | false =>
          obtain ⟨hlow, hvalid, rfl⟩ := hplain he hs
          have hpoint := toNat_ofNat_point hvalid
          have hne : n ≠ 0x22 ∧ n ≠ 0x5C := by
            constructor
            all_goals
              rintro rfl
              cases hs
          rw [if_neg Bool.false_ne_true]
          exact scan_plain stack goal text rest (by rw [hpoint]; exact hne.1)
            (by rw [hpoint]; exact hne.2) (by rw [hpoint]; exact hlow)

end Reading

theorem shortEscape?_lt {n : Nat} (h : (shortEscape? n).isSome) : n < 0x80 := by
  rw [shortEscape?] at h
  split_ifs at h
  all_goals first
    | omega
    | cases h

theorem encode_ofNat_unit {n : Nat} (h : n < 0xD800 ∨ 0xDFFF < n ∧ n < 0x110000)
    (hlow : n < 0x10000) : Utf16.encode (Char.ofNat n) = [n] := by
  rw [Utf16.encode, toNat_ofNat_point h, if_pos hlow]

/-- A unit on its own, as `json.dumps` writes it. -/
theorem scan_asciiUnit (u : UInt16) (stack : List Frame) (goal : Goal) (text : List Nat)
    (rest : List Char) :
    scan ⟨stack, .string goal text .no⟩ (writePoint asciiEscaped u.toNat ++ rest) =
      scan ⟨stack, .string goal (text ++ [u.toNat]) .no⟩ rest := by
  have hu := u.toNat_lt
  refine scan_writePoint _ _ _ _ (fun _ => ⟨hu, rfl⟩) (fun _ => rfl) fun he _ => ?_
  simp only [asciiEscaped, Bool.or_eq_false_iff, decide_eq_false_iff_not] at he
  exact ⟨by omega, by omega, (encode_ofNat_unit (by omega) (by omega)).symm⟩

/-- Python's `json.dumps`. -/
def dumps : Quoting where
  quote units := units.flatMap fun u => writePoint asciiEscaped u.toNat
  reads units := by
    induction units with
    | nil =>
        intro stack goal text rest
        rw [List.map_nil, List.append_nil]
        rfl
    | cons u units ih =>
        intro stack goal text rest
        rw [List.flatMap_cons, List.append_assoc, scan_asciiUnit, ih, List.append_assoc]
        rfl

/-- A unit that is no half of a pair, as `JSON.stringify` writes it. -/
theorem scan_stringifyUnit (u : UInt16) (stack : List Frame) (goal : Goal) (text : List Nat)
    (rest : List Char) :
    scan ⟨stack, .string goal text .no⟩ (writePoint stringifyEscaped u.toNat ++ rest) =
      scan ⟨stack, .string goal (text ++ [u.toNat]) .no⟩ rest := by
  have hu := u.toNat_lt
  refine scan_writePoint _ _ _ _ (fun _ => ⟨hu, rfl⟩) (fun _ => rfl) fun he _ => ?_
  simp only [stringifyEscaped, isSurrogate, Bool.or_eq_false_iff, Bool.and_eq_false_iff,
    decide_eq_false_iff_not] at he
  exact ⟨by omega, by omega, (encode_ofNat_unit (by omega) (by omega)).symm⟩

/-- A surrogate pair is written as the code point it stands for. -/
theorem scan_stringifyPair {u v : UInt16} (h : (Utf16.isLead u && Utf16.isTrail v) = true)
    (stack : List Frame) (goal : Goal) (text : List Nat) (rest : List Char) :
    scan ⟨stack, .string goal text .no⟩ (writePoint stringifyEscaped
        (0x10000 + (u.toNat - 0xD800) * 0x400 + (v.toNat - 0xDC00)) ++ rest) =
      scan ⟨stack, .string goal (text ++ [u.toNat, v.toNat]) .no⟩ rest := by
  simp only [Utf16.isLead, Utf16.isTrail, Bool.and_eq_true, decide_eq_true_eq] at h
  obtain ⟨⟨hu, hu'⟩, hv, hv'⟩ := h
  generalize hn : 0x10000 + (u.toNat - 0xD800) * 0x400 + (v.toNat - 0xDC00) = n
  have hlead : 0xD800 + (n - 0x10000) / 0x400 = u.toNat := by omega
  have htrail : 0xDC00 + (n - 0x10000) % 0x400 = v.toNat := by omega
  apply scan_writePoint
  · intro he
    simp only [stringifyEscaped, isSurrogate, Bool.or_eq_true, Bool.and_eq_true,
      decide_eq_true_eq] at he
    omega
  · intro hs
    have := shortEscape?_lt hs
    omega
  · intro _ _
    refine ⟨by omega, by omega, ?_⟩
    rw [Utf16.encode, toNat_ofNat_point (by omega), if_neg (by omega), hlead, htrail]

/-- `JSON.stringify`, and `serde_json` on the units of a Rust string. -/
def stringify : Quoting where
  quote units := (Utf16.codePoints units).flatMap (writePoint stringifyEscaped)
  reads units := by
    induction units using Utf16.codePoints.induct with
    | case1 =>
        intro stack goal text rest
        rw [List.map_nil, List.append_nil]
        rfl
    | case2 u =>
        intro stack goal text rest
        rw [Utf16.codePoints, List.flatMap_singleton, scan_stringifyUnit]
        rfl
    | case3 u v units h ih =>
        intro stack goal text rest
        rw [Utf16.codePoints, if_pos h, List.flatMap_cons, List.append_assoc,
          scan_stringifyPair h, ih, List.append_assoc]
        rfl
    | case4 u v units h ih =>
        intro stack goal text rest
        rw [Utf16.codePoints, if_neg h, List.flatMap_cons, List.append_assoc,
          scan_stringifyUnit, ih, List.append_assoc]
        rfl

/-! ## Integers -/

/-- What may follow a value inside a document, or its end. -/
def Closes (rest : List Char) : Prop := ∀ c ∈ rest.head?, c = ',' ∨ c = ']' ∨ c = '}'

theorem digit?_digitChar {d : Nat} (h : d < 10) : digit? (Nat.digitChar d) = some d := by
  have hall : ∀ m ∈ List.range 10, digit? (Nat.digitChar m) = some m := by decide
  exact hall d (List.mem_range.mpr h)

theorem toNat_of_digit? {c : Char} {d : Nat} (h : digit? c = some d) : c.toNat - 48 = d := by
  rw [digit?] at h
  split_ifs at h
  exact Option.some.inj h

/-- The digits of a positive number begin with a digit other than zero. -/
theorem toDigits_of_pos {n : Nat} (h : 0 < n) :
    ∃ d ds, Nat.toDigits 10 n = Nat.digitChar d :: ds ∧ 0 < d ∧ d < 10 ∧
      ∀ c ∈ ds, (digit? c).isSome := by
  induction n using Nat.strong_induction_on with
  | _ n ih =>
    by_cases hlt : n < 10
    · exact ⟨n, [], Nat.toDigits_of_lt_base hlt, h, hlt, fun _ hc => absurd hc List.not_mem_nil⟩
    · obtain ⟨d, ds, hds, hpos, hten, hall⟩ := ih (n / 10) (by omega) (by omega)
      refine ⟨d, ds ++ [Nat.digitChar (n % 10)], ?_, hpos, hten, fun c hc => ?_⟩
      · rw [Nat.toDigits_of_base_le (by decide) (by omega), hds, List.cons_append]
      · rcases List.mem_append.mp hc with hc | hc
        · exact hall c hc
        · rw [List.mem_singleton.mp hc, digit?_digitChar (by omega)]
          rfl

section Numbers

variable (stack : List Frame) (rest : List Char)

/-- A number ends where the container around it goes on, or where the text ends. -/
theorem scan_numberEnd {phase : NumberPhase} (hphase : phase = .zero ∨ phase = .whole)
    (l : Literal) (hrest : Closes rest) :
    scan ⟨stack, .number phase l⟩ rest =
      behind [.number l] (scan ⟨stack, .after (.number l)⟩ rest) := by
  cases rest with
  | nil =>
      rcases hphase with rfl | rfl
      all_goals
        cases stack with
        | nil => rfl
        | cons frame stack => rfl
  | cons c rest =>
      have hstep : State.step ⟨stack, .number phase l⟩ c =
          ([.number l], afterStep stack (.number l) c) := by
        rcases hrest c rfl with rfl | rfl | rfl
        all_goals
          rcases hphase with rfl | rfl
          · rfl
          · rfl
      have hafter : State.step ⟨stack, .after (.number l)⟩ c =
          ([], afterStep stack (.number l) c) := rfl
      cases hs : afterStep stack (.number l) c with
      | none =>
          rw [hs] at hstep hafter
          rw [scan, scan, hstep, hafter]
          rfl
      | some t =>
          rw [hs] at hstep hafter
          rw [scan_cons hstep, scan_step hafter]

theorem scan_digits {ds : List Char} (hds : ∀ c ∈ ds, (digit? c).isSome) (l : Literal) :
    scan ⟨stack, .number .whole l⟩ (ds ++ rest) =
      scan ⟨stack, .number .whole
        { l with whole := l.whole ++ ds.map fun c => c.toNat - 48 }⟩ rest := by
  induction ds generalizing l with
  | nil =>
      rw [List.map_nil, List.append_nil]
      rfl
  | cons c ds ih =>
      obtain ⟨d, hd⟩ := Option.isSome_iff_exists.mp (hds c List.mem_cons_self)
      have hstep : State.step ⟨stack, .number .whole l⟩ c =
          goto stack (.number .whole { l with whole := l.whole ++ [d] }) := by
        show numberStep stack .whole l c = _
        unfold numberStep
        rw [hd]
      rw [List.cons_append, scan_step hstep,
        ih (fun e he => hds e (List.mem_cons_of_mem c he)), List.map_cons, toNat_of_digit? hd]
      dsimp only
      rw [List.append_assoc]
      rfl

/-- A digit other than zero begins a number. -/
theorem valueStep_digit {d : Nat} (hpos : 0 < d) (hten : d < 10) (close : Bool) :
    State.step ⟨stack, .value close⟩ (Nat.digitChar d) =
      goto stack (.number .whole ⟨false, [d], none, none⟩) := by
  have hd : d = 1 ∨ d = 2 ∨ d = 3 ∨ d = 4 ∨ d = 5 ∨ d = 6 ∨ d = 7 ∨ d = 8 ∨ d = 9 := by omega
  rcases hd with rfl | rfl | rfl | rfl | rfl | rfl | rfl | rfl | rfl
  all_goals rfl

theorem minusStep_digit {d : Nat} (hpos : 0 < d) (hten : d < 10) :
    State.step ⟨stack, .number .minus ⟨true, [], none, none⟩⟩ (Nat.digitChar d) =
      goto stack (.number .whole ⟨true, [d], none, none⟩) := by
  have hd : d = 1 ∨ d = 2 ∨ d = 3 ∨ d = 4 ∨ d = 5 ∨ d = 6 ∨ d = 7 ∨ d = 8 ∨ d = 9 := by omega
  rcases hd with rfl | rfl | rfl | rfl | rfl | rfl | rfl | rfl | rfl
  all_goals rfl

/-- The decimal text of an integer. -/
def writeInt (n : Int) : List Char :=
  if n < 0 then '-' :: Nat.toDigits 10 n.natAbs else Nat.toDigits 10 n.natAbs

theorem scan_writeInt (n : Int) (close : Bool) (hrest : Closes rest) :
    scan ⟨stack, .value close⟩ (writeInt n ++ rest) =
      behind [.number (intLiteral n)] (scan ⟨stack, .after (.number (intLiteral n))⟩ rest) := by
  by_cases hzero : n.natAbs = 0
  · obtain rfl := Int.natAbs_eq_zero.mp hzero
    have hstep : scan ⟨stack, .value close⟩ ('0' :: rest) =
        scan ⟨stack, .number .zero ⟨false, [0], none, none⟩⟩ rest := scan_step rfl
    exact hstep.trans (scan_numberEnd stack rest (.inl rfl) _ hrest)
  · obtain ⟨d, ds, hdigits, hpos, hten, hds⟩ := toDigits_of_pos (Nat.pos_of_ne_zero hzero)
    have hliteral : ∀ b, intLiteral n = ⟨b, d :: ds.map fun c => c.toNat - 48, none, none⟩ ↔
        decide (n < 0) = b := by
      intro b
      rw [intLiteral, hdigits, List.map_cons, toNat_of_digit? (digit?_digitChar hten),
        Literal.mk.injEq]
      exact ⟨fun h => h.1, fun h => ⟨h, rfl, rfl, rfl⟩⟩
    rw [writeInt, hdigits]
    by_cases hneg : n < 0
    · have hminus : scan ⟨stack, .value close⟩ ('-' :: Nat.digitChar d :: (ds ++ rest)) =
          scan ⟨stack, .number .minus ⟨true, [], none, none⟩⟩ (Nat.digitChar d :: (ds ++ rest)) :=
        scan_step rfl
      rw [if_pos hneg, List.cons_append, List.cons_append, hminus,
        scan_step (minusStep_digit stack hpos hten), scan_digits stack rest hds,
        scan_numberEnd stack rest (.inr rfl) _ hrest,
        (hliteral true).mpr (decide_eq_true hneg)]
      rfl
    · rw [if_neg hneg, List.cons_append, scan_step (valueStep_digit stack hpos hten close),
        scan_digits stack rest hds, scan_numberEnd stack rest (.inr rfl) _ hrest,
        (hliteral false).mpr (decide_eq_false hneg)]
      rfl

end Numbers

/-- The digits of a number are read as the number. -/
theorem ofDigits_toDigits (n : Nat) :
    Literal.ofDigits ((Nat.toDigits 10 n).map fun c => c.toNat - 48) = n := by
  induction n using Nat.strong_induction_on with
  | _ n ih =>
    by_cases hlt : n < 10
    · rw [Nat.toDigits_of_lt_base hlt, List.map_singleton, toNat_of_digit? (digit?_digitChar hlt)]
      show 10 * 0 + n = n
      omega
    · have hrec := ih (n / 10) (by omega)
      rw [Literal.ofDigits] at hrec ⊢
      rw [Nat.toDigits_of_base_le (by decide) (by omega), List.map_append, List.foldl_append,
        hrec, List.map_singleton, toNat_of_digit? (digit?_digitChar (by omega))]
      show 10 * (n / 10) + n % 10 = n
      omega

/-- An integer is printed as a literal of its value. -/
theorem toInt_intLiteral (n : Int) : (intLiteral n).toInt = n := by
  rw [Literal.toInt, Literal.magnitude, intLiteral, ofDigits_toDigits]
  by_cases h : n < 0
  · rw [if_pos (decide_eq_true h)]
    omega
  · rw [if_neg (fun hneg => h (of_decide_eq_true hneg))]
    omega

/-! ## Writing -/

/-- A string with its quotation marks. -/
def writeString (q : Quoting) (units : List UInt16) : List Char :=
  Char.ofNat 0x22 :: (q.quote units ++ [Char.ofNat 0x22])

mutual

def Document.write (q : Quoting) : Document → List Char
  | .null => "null".toList
  | .bool true => "true".toList
  | .bool false => "false".toList
  | .int n => writeInt n
  | .string units => writeString q units
  | .array [] => ['[', ']']
  | .array (item :: items) => '[' :: (item.write q ++ writeItems q items)
  | .object [] => ['\x7b', '\x7d']
  | .object ((key, value) :: fields) =>
      '\x7b' :: (writeString q key ++ ':' :: (value.write q ++ writeFields q fields))

/-- The rest of an array behind an item. -/
def writeItems (q : Quoting) : List Document → List Char
  | [] => [']']
  | item :: items => ',' :: (item.write q ++ writeItems q items)

/-- The rest of an object behind a member. -/
def writeFields (q : Quoting) : List (List UInt16 × Document) → List Char
  | [] => ['\x7d']
  | (key, value) :: fields =>
      ',' :: (writeString q key ++ ':' :: (value.write q ++ writeFields q fields))

end

theorem closes_writeItems (q : Quoting) (items : List Document) (rest : List Char) :
    Closes (writeItems q items ++ rest) := by
  intro c hc
  cases items with
  | nil => exact .inr (.inl (Option.some.inj hc).symm)
  | cons item items => exact .inl (Option.some.inj hc).symm

theorem closes_writeFields (q : Quoting) (fields : List (List UInt16 × Document))
    (rest : List Char) : Closes (writeFields q fields ++ rest) := by
  intro c hc
  cases fields with
  | nil => exact .inr (.inr (Option.some.inj hc).symm)
  | cons field fields => exact .inl (Option.some.inj hc).symm

section Strings

variable (q : Quoting) (stack : List Frame) (units : List UInt16) (rest : List Char)

theorem scan_writeString (close : Bool) :
    scan ⟨stack, .value close⟩ (writeString q units ++ rest) =
      behind [.string (units.map UInt16.toNat)]
        (scan ⟨stack, .after (.string (units.map UInt16.toNat))⟩ rest) := by
  have hopen : ∀ text, scan ⟨stack, .value close⟩ (Char.ofNat 0x22 :: text) =
      scan ⟨stack, .string .value [] .no⟩ text := fun _ => scan_step rfl
  have hclose : State.step ⟨stack, .string .value (units.map UInt16.toNat) .no⟩ (Char.ofNat 0x22) =
      ([.string (units.map UInt16.toNat)],
        some ⟨stack, .after (.string (units.map UInt16.toNat))⟩) := rfl
  rw [writeString, List.cons_append, hopen, List.append_assoc, q.reads, List.nil_append,
    List.singleton_append, scan_cons hclose]

/-- A key and its colon. -/
theorem scan_writeKey (fields : List (List Nat × Json)) (close : Bool) :
    scan ⟨stack, .key fields close⟩ (writeString q units ++ ':' :: rest) =
      behind [.string (units.map UInt16.toNat)]
        (scan ⟨.object fields (units.map UInt16.toNat) :: stack, .value false⟩ rest) := by
  have hopen : ∀ text, scan ⟨stack, .key fields close⟩ (Char.ofNat 0x22 :: text) =
      scan ⟨stack, .string (.key fields) [] .no⟩ text := fun _ => scan_step rfl
  have hclose : State.step ⟨stack, .string (.key fields) (units.map UInt16.toNat) .no⟩
      (Char.ofNat 0x22) =
      ([.string (units.map UInt16.toNat)],
        some ⟨stack, .colon fields (units.map UInt16.toNat)⟩) := rfl
  have hcolon : scan ⟨stack, .colon fields (units.map UInt16.toNat)⟩ (':' :: rest) =
      scan ⟨.object fields (units.map UInt16.toNat) :: stack, .value false⟩ rest :=
    scan_step rfl
  rw [writeString, List.cons_append, hopen, List.append_assoc, q.reads, List.nil_append,
    List.singleton_append, scan_cons hclose, hcolon]

end Strings

/-! ## The members of a document -/

theorem map_toNat_injective {us vs : List UInt16} (h : us.map UInt16.toNat = vs.map UInt16.toNat) :
    us = vs :=
  List.map_injective_iff.mpr (fun _ _ => UInt16.toNat_inj.mp) h

theorem itemsToJson_eq (items : List Document) : itemsToJson items = items.map Document.toJson := by
  induction items with
  | nil => rw [itemsToJson, List.map_nil]
  | cons item items ih => rw [itemsToJson, List.map_cons, ih]

theorem fieldsToJson_eq (fields : List (List UInt16 × Document)) :
    fieldsToJson fields = fields.map fun field => (field.1.map UInt16.toNat, field.2.toJson) := by
  induction fields with
  | nil => rw [fieldsToJson, List.map_nil]
  | cons entry fields ih => rw [fieldsToJson, List.map_cons, ih]

/-- Where every name occurs once, the member of a name is the one that is there. -/
theorem field_of_mem {fields : List (List Nat × Json)} (hnodup : (fields.map Prod.fst).Nodup)
    {name : String} {v : Json} (h : (units name, v) ∈ fields) : field fields name = some v := by
  rw [field, List.findRev?_eq_find?_reverse]
  cases hfind : fields.reverse.find? fun entry => entry.1 == units name with
  | none =>
      rw [List.find?_eq_none] at hfind
      exact absurd (beq_self_eq_true _) (hfind _ (List.mem_reverse.mpr h))
  | some entry =>
      have hmem := List.mem_reverse.mp (List.mem_of_find?_eq_some hfind)
      have hfound := List.find?_some hfind
      have hkey : entry.1 = units name := beq_iff_eq.mp hfound
      rw [List.inj_on_of_nodup_map hnodup hmem h hkey]
      rfl

theorem field_of_not_mem {fields : List (List Nat × Json)} {name : String}
    (h : units name ∉ fields.map Prod.fst) : field fields name = none := by
  rw [field, List.findRev?_eq_find?_reverse, Option.map_eq_none_iff, List.find?_eq_none]
  intro entry hentry hkey
  exact h (List.mem_map.mpr ⟨entry, List.mem_reverse.mp hentry, beq_iff_eq.mp hkey⟩)

/-! ## Reading back -/

mutual

/-- Behind the text of a document the reader has its value, and has met its features. -/
theorem scan_write (q : Quoting) (stack : List Frame) (close : Bool) (rest : List Char)
    (hrest : Closes rest) : ∀ v : Document,
    scan ⟨stack, .value close⟩ (v.write q ++ rest) =
      behind (v.features (stack.length + 1)) (scan ⟨stack, .after v.toJson⟩ rest)
  | .null => by
      rw [Document.write, Document.toJson, Document.features]
      rfl
  | .bool true => by
      rw [Document.write, Document.toJson, Document.features]
      rfl
  | .bool false => by
      rw [Document.write, Document.toJson, Document.features]
      rfl
  | .int n => by
      rw [Document.write, Document.toJson, Document.features]
      exact scan_writeInt stack rest n close hrest
  | .string units => by
      rw [Document.write, Document.toJson, Document.features]
      exact scan_writeString q stack units rest close
  | .array [] => by
      rw [Document.write, Document.toJson, Document.features]
      rfl
  | .array (item :: items) => by
      have hopen : State.step ⟨stack, .value close⟩ '[' =
          ([.nest (stack.length + 1)], some ⟨.array [] :: stack, .value true⟩) := rfl
      rw [Document.write, Document.toJson, Document.features, itemsToJson, itemsFeatures,
        List.cons_append, scan_cons hopen, List.append_assoc,
        scan_write q _ true _ (closes_writeItems q items rest) item,
        scan_writeItems q stack rest [] item.toJson items, behind_behind, behind_behind]
      rfl
  | .object [] => by
      rw [Document.write, Document.toJson, Document.features]
      rfl
  | .object ((key, value) :: fields) => by
      have hopen : State.step ⟨stack, .value close⟩ '\x7b' =
          ([.nest (stack.length + 1)], some ⟨stack, .key [] true⟩) := rfl
      rw [Document.write, Document.toJson, Document.features, fieldsToJson, fieldsFeatures,
        List.cons_append, scan_cons hopen, List.append_assoc, List.cons_append, scan_writeKey,
        List.append_assoc, scan_write q _ false _ (closes_writeFields q fields rest) value,
        scan_writeFields q stack rest [] _ value.toJson fields, behind_behind, behind_behind,
        behind_behind]
      rfl

theorem scan_writeItems (q : Quoting) (stack : List Frame) (rest : List Char)
    (before : List Json) (v : Json) : ∀ items : List Document,
    scan ⟨.array before :: stack, .after v⟩ (writeItems q items ++ rest) =
      behind (itemsFeatures (stack.length + 2) items)
        (scan ⟨stack, .after (.array (before ++ v :: itemsToJson items))⟩ rest)
  | [] => by
      rw [writeItems, itemsToJson, itemsFeatures]
      rfl
  | item :: items => by
      have hcomma : ∀ text, scan ⟨.array before :: stack, .after v⟩ (',' :: text) =
          scan ⟨.array (before ++ [v]) :: stack, .value false⟩ text := fun _ => scan_step rfl
      rw [writeItems, itemsToJson, itemsFeatures, List.cons_append, hcomma, List.append_assoc,
        scan_write q _ false _ (closes_writeItems q items rest) item,
        scan_writeItems q stack rest (before ++ [v]) item.toJson items, behind_behind,
        List.append_assoc]
      rfl

theorem scan_writeFields (q : Quoting) (stack : List Frame) (rest : List Char)
    (before : List (List Nat × Json)) (key : List Nat) (v : Json) :
    ∀ fields : List (List UInt16 × Document),
    scan ⟨.object before key :: stack, .after v⟩ (writeFields q fields ++ rest) =
      behind (fieldsFeatures (stack.length + 2) fields)
        (scan ⟨stack, .after (.object (before ++ (key, v) :: fieldsToJson fields))⟩ rest)
  | [] => by
      rw [writeFields, fieldsToJson, fieldsFeatures]
      rfl
  | (name, value) :: fields => by
      have hcomma : ∀ text, scan ⟨.object before key :: stack, .after v⟩ (',' :: text) =
          scan ⟨stack, .key (before ++ [(key, v)]) false⟩ text := fun _ => scan_step rfl
      rw [writeFields, fieldsToJson, fieldsFeatures, List.cons_append, hcomma, List.append_assoc,
        List.cons_append, scan_writeKey, List.append_assoc,
        scan_write q _ false _ (closes_writeFields q fields rest) value,
        scan_writeFields q stack rest (before ++ [(key, v)]) _ value.toJson fields,
        List.append_assoc, behind_behind, behind_behind]
      rfl

end

/-- **The text of a document reads as the document**, however its strings are quoted. -/
theorem read_write (q : Quoting) (v : Document) :
    read (v.write q) = (v.features 1, some v.toJson) := by
  have hnil : Closes [] := fun c hc => by cases hc
  have h := scan_write q [] false [] hnil v
  rw [List.append_nil] at h
  rw [read, h]
  show (v.features 1 ++ [], some v.toJson) = _
  rw [List.append_nil]

/-- A dialect that takes what is in a document parses its text. -/
theorem parse_write {ε : Type} {d : Dialect ε} (q : Quoting) {v : Document}
    (h : ∀ f ∈ v.features 1, d.check f = .ok ()) : d.parse (v.write q) = .ok v.toJson :=
  Dialect.parse_of_check (by rwa [read_write]) (by rw [read_write])

end FissionPlane.Lib.Json
