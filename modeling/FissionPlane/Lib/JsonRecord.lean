/-
# FissionPlane.Lib.JsonRecord -- records as JSON objects

A record is written as an object with one member for each field, and none for a field that is not
set. Writers order the members differently, at every level. A reader by name does not see the order:
a `Wire` reads back whatever differs from what it writes in the order of members only.
-/
import FissionPlane.Lib.JsonWriter
import FissionPlane.Lib.PercentEncoding
import Mathlib.Data.List.Forall2
import Mathlib.Data.List.Perm.Basic
import Mathlib.Data.List.Sort

namespace FissionPlane.Lib.Json

open FissionPlane.Lib.Text (bytes)

/-! ## Texts -/

/-- A text as the units a JSON writer sees. -/
def unitsOf (s : List Char) : List UInt16 := (s.flatMap Utf16.encode).map UInt16.ofNat

/-- The text of units in which every surrogate has its partner. -/
def textOf (us : List Nat) : List Char :=
  (Utf16.codePoints (us.map UInt16.ofNat)).map Char.ofNat

theorem unitsOf_toNat (s : List Char) : (unitsOf s).map UInt16.toNat = s.flatMap Utf16.encode :=
  Utf16.map_toNat_encode s

theorem unitsOf_injective {s t : List Char} (h : unitsOf s = unitsOf t) : s = t := by
  apply Utf16.flatMap_encode_inj.mp
  rw [← unitsOf_toNat s, h, unitsOf_toNat t]

theorem textOf_encode (s : List Char) : textOf (s.flatMap Utf16.encode) = s := by
  rw [textOf, Utf16.codePoints_encode, List.map_map]
  refine (List.map_congr_left fun c _ => ?_).trans (List.map_id _)
  exact Char.ofNat_toNat c

/-! ## Documents up to the order of members -/

/-- The order by which members are sorted. -/
def memberLe (p q : List UInt16 × Document) : Bool :=
  decide (p.1 ≤ q.1)

mutual

/-- The document with the members of every object sorted by name. -/
def Document.normal : Document → Document
  | .null => .null
  | .bool b => .bool b
  | .int n => .int n
  | .string units => .string units
  | .array items => .array (normalItems items)
  | .object fields => .object ((normalFields fields).mergeSort memberLe)

def normalItems : List Document → List Document
  | [] => []
  | item :: items => item.normal :: normalItems items

def normalFields : List (List UInt16 × Document) → List (List UInt16 × Document)
  | [] => []
  | (key, value) :: fields => (key, value.normal) :: normalFields fields

end

/-- Two documents that differ in the order of members only. -/
def Reorders (v w : Document) : Prop := v.normal = w.normal

theorem normalItems_eq (items : List Document) : normalItems items = items.map Document.normal := by
  induction items with
  | nil => rw [normalItems, List.map_nil]
  | cons item items ih => rw [normalItems, List.map_cons, ih]

theorem normalFields_eq (fields : List (List UInt16 × Document)) :
    normalFields fields = fields.map fun field => (field.1, field.2.normal) := by
  induction fields with
  | nil => rw [normalFields, List.map_nil]
  | cons entry fields ih => rw [normalFields, List.map_cons, ih]

theorem Reorders.refl (v : Document) : Reorders v v := rfl

/-- Sorting forgets the order, where no name occurs twice. -/
theorem sortMembers_eq {fs gs : List (List UInt16 × Document)} (hperm : fs.Perm gs)
    (hnodup : (fs.map Prod.fst).Nodup) : fs.mergeSort memberLe = gs.mergeSort memberLe := by
  have htotal : ∀ p q : List UInt16 × Document, (memberLe p q || memberLe q p) = true := by
    intro p q
    simp only [memberLe, Bool.or_eq_true, decide_eq_true_eq]
    exact List.le_total _ _
  have htrans : ∀ p q r : List UInt16 × Document,
      memberLe p q = true → memberLe q r = true → memberLe p r = true := by
    intro p q r hpq hqr
    simp only [memberLe, decide_eq_true_eq] at hpq hqr ⊢
    exact List.le_trans hpq hqr
  have hsorted := fun l => List.pairwise_mergeSort htrans htotal l
  refine List.Perm.eq_of_pairwise ?_ (hsorted fs) (hsorted gs)
    ((List.mergeSort_perm fs memberLe).trans (hperm.trans (List.mergeSort_perm gs memberLe).symm))
  intro p q hp hq hpq hqp
  simp only [memberLe, decide_eq_true_eq] at hpq hqp
  have hkey : p.1 = q.1 := List.le_antisymm hpq hqp
  exact List.inj_on_of_nodup_map hnodup ((List.mergeSort_perm fs memberLe).mem_iff.mp hp)
    (hperm.symm.mem_iff.mp ((List.mergeSort_perm gs memberLe).mem_iff.mp hq)) hkey

/-! ### What is below a document -/

theorem itemsFeatures_eq (depth : Nat) (items : List Document) :
    itemsFeatures depth items = items.flatMap (Document.features depth) := by
  induction items with
  | nil => rw [itemsFeatures, List.flatMap_nil]
  | cons item items ih => rw [itemsFeatures, List.flatMap_cons, ih]

theorem fieldsFeatures_eq (depth : Nat) (fields : List (List UInt16 × Document)) :
    fieldsFeatures depth fields = fields.flatMap fun field =>
      .string (field.1.map UInt16.toNat) :: field.2.features depth := by
  induction fields with
  | nil => rw [fieldsFeatures, List.flatMap_nil]
  | cons entry fields ih => rw [fieldsFeatures, List.flatMap_cons, ih, List.cons_append]

mutual

/-- Sorting members changes the order of the features, and not which there are. -/
theorem mem_features_normal (f : Feature) : ∀ (depth : Nat) (v : Document),
    f ∈ v.normal.features depth ↔ f ∈ v.features depth
  | _, .null => Iff.rfl
  | _, .bool _ => Iff.rfl
  | _, .int _ => Iff.rfl
  | _, .string _ => Iff.rfl
  | depth, .array items => by
      rw [Document.normal, Document.features, Document.features, List.mem_cons, List.mem_cons,
        mem_itemsFeatures_normal f (depth + 1) items]
  | depth, .object fields => by
      have hsort := (List.mergeSort_perm (normalFields fields) memberLe).flatMap_right fun field =>
        Feature.string (field.1.map UInt16.toNat) :: field.2.features (depth + 1)
      rw [Document.normal, Document.features, Document.features, List.mem_cons, List.mem_cons,
        ← mem_fieldsFeatures_normal f (depth + 1) fields, fieldsFeatures_eq, hsort.mem_iff,
        fieldsFeatures_eq]

theorem mem_itemsFeatures_normal (f : Feature) : ∀ (depth : Nat) (items : List Document),
    f ∈ itemsFeatures depth (normalItems items) ↔ f ∈ itemsFeatures depth items
  | _, [] => Iff.rfl
  | depth, item :: items => by
      rw [normalItems, itemsFeatures, itemsFeatures, List.mem_append, List.mem_append,
        mem_features_normal f depth item, mem_itemsFeatures_normal f depth items]

theorem mem_fieldsFeatures_normal (f : Feature) :
    ∀ (depth : Nat) (fields : List (List UInt16 × Document)),
    f ∈ fieldsFeatures depth (normalFields fields) ↔ f ∈ fieldsFeatures depth fields
  | _, [] => Iff.rfl
  | depth, (key, value) :: fields => by
      rw [normalFields, fieldsFeatures, fieldsFeatures, List.mem_cons, List.mem_cons,
        List.mem_append, List.mem_append, mem_features_normal f depth value,
        mem_fieldsFeatures_normal f depth fields]

end

theorem Reorders.mem_features {v w : Document} (h : Reorders v w) (f : Feature) (depth : Nat) :
    f ∈ v.features depth ↔ f ∈ w.features depth := by
  rw [← mem_features_normal f depth v, h, mem_features_normal]

/-! ### The shape of a document -/

theorem Reorders.string_inv {d : Document} {us : List UInt16} (h : Reorders d (.string us)) :
    d = .string us := by
  cases d <;> simp only [Reorders, Document.normal, Document.string.injEq, reduceCtorEq] at h
  rw [h]

theorem Reorders.int_inv {d : Document} {n : Int} (h : Reorders d (.int n)) : d = .int n := by
  cases d <;> simp only [Reorders, Document.normal, Document.int.injEq, reduceCtorEq] at h
  rw [h]

theorem Reorders.bool_inv {d : Document} {b : Bool} (h : Reorders d (.bool b)) : d = .bool b := by
  cases d <;> simp only [Reorders, Document.normal, Document.bool.injEq, reduceCtorEq] at h
  rw [h]

theorem Reorders.array_inv {d : Document} {ws : List Document} (h : Reorders d (.array ws)) :
    ∃ vs, d = .array vs ∧ List.Forall₂ Reorders vs ws := by
  cases d <;> simp only [Reorders, Document.normal, Document.array.injEq, reduceCtorEq] at h
  next vs =>
    rw [normalItems_eq, normalItems_eq] at h
    have hall : List.Forall₂ Eq (vs.map Document.normal) (ws.map Document.normal) := by
      rw [List.forall₂_eq_eq_eq]
      exact h
    rw [List.forall₂_map_left_iff, List.forall₂_map_right_iff] at hall
    exact ⟨vs, rfl, hall⟩

/-- A member of the same name with a value that differs in the order of members only. -/
def SameMember (p q : List UInt16 × Document) : Prop := p.1 = q.1 ∧ Reorders p.2 q.2

/-- Objects that differ in the order of members have the same members, up to this order below. -/
theorem Reorders.object_inv {d : Document} {gs : List (List UInt16 × Document)}
    (h : Reorders d (.object gs)) :
    ∃ fs hs, d = .object fs ∧ List.Forall₂ SameMember fs hs ∧ hs.Perm gs := by
  cases d <;> simp only [Reorders, Document.normal, Document.object.injEq, reduceCtorEq] at h
  next fs =>
    have hperm : (normalFields fs).Perm (normalFields gs) :=
      (List.mergeSort_perm _ memberLe).symm.trans (h ▸ List.mergeSort_perm _ memberLe)
    rw [normalFields_eq, normalFields_eq] at hperm
    have hself : List.Forall₂ (fun p q => p = (q.1, q.2.normal))
        (gs.map fun field => (field.1, field.2.normal)) gs :=
      List.forall₂_map_left_iff.mpr (List.forall₂_same.mpr fun _ _ => rfl)
    obtain ⟨hs, hall, hgs⟩ := List.perm_comp_forall₂ hperm hself
    rw [List.forall₂_map_left_iff] at hall
    refine ⟨fs, hs, rfl, hall.imp ?_, hgs⟩
    intro p q hpq
    rw [Prod.mk.injEq] at hpq
    exact hpq

theorem SameMember.map_fst {fs gs : List (List UInt16 × Document)}
    (h : List.Forall₂ SameMember fs gs) : fs.map Prod.fst = gs.map Prod.fst := by
  induction h with
  | nil => rfl
  | cons hmember _ ih => rw [List.map_cons, List.map_cons, hmember.1, ih]

theorem SameMember.normalFields_eq {fs gs : List (List UInt16 × Document)}
    (h : List.Forall₂ SameMember fs gs) : normalFields fs = normalFields gs := by
  induction h with
  | nil => rfl
  | @cons p q fs gs hmember _ ih =>
      obtain ⟨hkey, hvalue⟩ := hmember
      rw [Reorders] at hvalue
      rw [normalFields, normalFields, hkey, hvalue, ih]

/-- Objects whose members are the same, in some order. -/
theorem Reorders.object {fs gs hs : List (List UInt16 × Document)}
    (hmembers : List.Forall₂ SameMember fs hs) (hperm : hs.Perm gs)
    (hnodup : (gs.map Prod.fst).Nodup) : Reorders (.object fs) (.object gs) := by
  have hkeys : ((normalFields hs).map Prod.fst).Nodup := by
    rw [normalFields_eq, List.map_map]
    exact (hperm.map Prod.fst).nodup_iff.mpr hnodup
  rw [Reorders, Document.normal, Document.normal, SameMember.normalFields_eq hmembers,
    normalFields_eq gs]
  rw [normalFields_eq] at hkeys ⊢
  rw [sortMembers_eq (hperm.map _) hkeys]

/-! ## Maps from texts -/

/-- A map, sorted by the bytes of its keys. -/
@[ext]
structure SortedMap (α : Type) where
  entries : List (List Char × α)
  sorted : entries.Pairwise fun p q => bytes p.1 < bytes q.1

section Maps

variable {α : Type}

/-- Set a key; the value of a key that is there already is replaced. -/
def insertEntry (key : List Char) (value : α) : List (List Char × α) → List (List Char × α)
  | [] => [(key, value)]
  | (k, v) :: rest =>
      if bytes key < bytes k then (key, value) :: (k, v) :: rest
      else if key = k then (key, value) :: rest
      else (k, v) :: insertEntry key value rest

theorem mem_insertEntry {key : List Char} {value : α} {entries : List (List Char × α)}
    {p : List Char × α} (h : p ∈ insertEntry key value entries) :
    p = (key, value) ∨ p ∈ entries := by
  induction entries with
  | nil => exact .inl (List.mem_singleton.mp h)
  | cons entry entries ih =>
      obtain ⟨k, v⟩ := entry
      rw [insertEntry] at h
      split_ifs at h
      · exact List.mem_cons.mp h
      · exact (List.mem_cons.mp h).imp_right (List.mem_cons_of_mem _)
      · rcases List.mem_cons.mp h with rfl | h
        · exact .inr List.mem_cons_self
        · exact (ih h).imp_right (List.mem_cons_of_mem _)

/-- Of two keys, one that is neither first nor the same comes second. -/
theorem bytes_lt_of_not {key k : List Char} (hlt : ¬ bytes key < bytes k) (hne : key ≠ k) :
    bytes k < bytes key := by
  by_contra hnot
  have heq := List.le_antisymm (List.not_lt.mp hlt) (List.not_lt.mp hnot)
  exact hne (PercentEncoding.bytes_injective heq.symm)

theorem sorted_insertEntry (key : List Char) (value : α) {entries : List (List Char × α)}
    (h : entries.Pairwise fun p q => bytes p.1 < bytes q.1) :
    (insertEntry key value entries).Pairwise fun p q => bytes p.1 < bytes q.1 := by
  induction entries with
  | nil => exact List.pairwise_singleton _ _
  | cons entry entries ih =>
      obtain ⟨k, v⟩ := entry
      obtain ⟨hhead, htail⟩ := List.pairwise_cons.mp h
      rw [insertEntry]
      split_ifs with hlt hkey
      · refine List.pairwise_cons.mpr ⟨fun q hq => ?_, h⟩
        rcases List.mem_cons.mp hq with rfl | hq
        · exact hlt
        · exact List.lt_trans hlt (hhead q hq)
      · subst hkey
        exact List.pairwise_cons.mpr ⟨hhead, htail⟩
      · refine List.pairwise_cons.mpr ⟨fun q hq => ?_, ih htail⟩
        rcases mem_insertEntry hq with rfl | hq
        · exact bytes_lt_of_not hlt hkey
        · exact hhead q hq

theorem insertEntry_perm {key : List Char} (value : α) {entries : List (List Char × α)}
    (h : key ∉ entries.map Prod.fst) :
    (insertEntry key value entries).Perm ((key, value) :: entries) := by
  induction entries with
  | nil => exact List.Perm.refl _
  | cons entry entries ih =>
      obtain ⟨k, v⟩ := entry
      rw [List.map_cons, List.mem_cons, not_or] at h
      rw [insertEntry]
      split_ifs with hlt hkey
      · exact List.Perm.refl _
      · exact absurd hkey h.1
      · exact ((ih h.2).cons (k, v)).trans (List.Perm.swap _ _ _)

def SortedMap.insert (m : SortedMap α) (p : List Char × α) : SortedMap α :=
  ⟨insertEntry p.1 p.2 m.entries, sorted_insertEntry p.1 p.2 m.sorted⟩

/-- The map of entries that are set one after another. -/
def SortedMap.ofEntries (entries : List (List Char × α)) : SortedMap α :=
  entries.foldl SortedMap.insert ⟨[], List.Pairwise.nil⟩

theorem foldl_insert_perm (entries : List (List Char × α)) (m : SortedMap α)
    (h : ((m.entries ++ entries).map Prod.fst).Nodup) :
    (entries.foldl SortedMap.insert m).entries.Perm (m.entries ++ entries) := by
  induction entries generalizing m with
  | nil =>
      rw [List.append_nil]
      exact List.Perm.refl _
  | cons p entries ih =>
      have hmiddle : (m.entries ++ p :: entries).Perm (p :: m.entries ++ entries) :=
        List.perm_middle
      have hnodup := (hmiddle.map Prod.fst).nodup_iff.mp h
      have hfresh : p.1 ∉ m.entries.map Prod.fst := by
        rw [List.cons_append, List.map_cons, List.nodup_cons, List.map_append,
          List.mem_append, not_or] at hnodup
        exact hnodup.1.1
      have hperm : ((m.insert p).entries ++ entries).Perm (p :: m.entries ++ entries) :=
        (insertEntry_perm p.2 hfresh).append_right entries
      rw [List.foldl_cons]
      exact (ih (m.insert p) ((hperm.map Prod.fst).nodup_iff.mpr hnodup)).trans
        (hperm.trans hmiddle.symm)

theorem ofEntries_entries_perm {entries : List (List Char × α)}
    (h : (entries.map Prod.fst).Nodup) : (SortedMap.ofEntries entries).entries.Perm entries :=
  foldl_insert_perm entries ⟨[], List.Pairwise.nil⟩ h

/-- The order in which the keys are set does not matter, where no key is set twice. -/
theorem SortedMap.ofEntries_congr {entries others : List (List Char × α)}
    (hperm : entries.Perm others) (hnodup : (entries.map Prod.fst).Nodup) :
    SortedMap.ofEntries entries = SortedMap.ofEntries others := by
  have hothers := (hperm.map Prod.fst).nodup_iff.mp hnodup
  apply SortedMap.ext
  refine List.Perm.eq_of_pairwise (fun p q _ _ hpq hqp => ?_) (SortedMap.sorted _)
    (SortedMap.sorted _) ?_
  · exact absurd (List.lt_trans hpq hqp) (List.lt_irrefl _)
  · exact (ofEntries_entries_perm hnodup).trans
      (hperm.trans (ofEntries_entries_perm hothers).symm)

end Maps

/-! ## Wires -/

/-- What a reader with unsigned numbers takes, where it nests below a bound. -/
def Fits (bound : Nat) : Feature → Prop
  | .nest depth => depth < bound
  | .number l => l.isInteger = true ∧ l.negative = false ∧ l.magnitude < 2 ^ 64
  | .string units => ∃ s : List Char, units = s.flatMap Utf16.encode
  | .constant _ => False

theorem Fits.mono {f : Feature} {bound bound' : Nat} (h : Fits bound f) (hle : bound ≤ bound') :
    Fits bound' f := by
  cases f with
  | nest depth => exact Nat.lt_of_lt_of_le h hle
  | number _ => exact h
  | string _ => exact h
  | constant _ => exact h

/-- A type on the wire: how its values are written, and as which values of another type they are
read. -/
structure Wire (α β : Type) where
  write : α → Document
  read : Json → Option β
  meant : α → β
  /-- How deep a value nests. -/
  height : Nat
  reads : ∀ (a : α) (d : Document), Reorders d (write a) → read d.toJson = some (meant a)
  fits : ∀ (a : α) (depth : Nat), ∀ f ∈ (write a).features depth, Fits (depth + height) f
  read_null : read .null = none

variable {α β γ δ : Type}

/-- A dialect that takes what fits parses every text of a value, and the value is read back. -/
theorem Wire.parse {ε : Type} {dialect : Dialect ε} (w : Wire α β)
    (haccepts : ∀ f, Fits (1 + w.height) f → dialect.check f = .ok ()) (q : Quoting) {a : α}
    {d : Document} (h : Reorders d (w.write a)) :
    ∃ v, dialect.parse (d.write q) = .ok v ∧ w.read v = some (w.meant a) := by
  refine ⟨d.toJson, parse_write q fun f hf => haccepts f ?_, w.reads a d h⟩
  exact w.fits a 1 f ((h.mem_features f 1).mp hf)

namespace Wire

/-- A text. -/
def text : Wire (List Char) (List Char) where
  write s := .string (unitsOf s)
  read
    | .string us => some (textOf us)
    | _ => none
  meant s := s
  height := 0
  reads s d h := by
    rw [h.string_inv, Document.toJson, unitsOf_toNat]
    exact congrArg some (textOf_encode s)
  fits s depth f hf := by
    rw [Document.features, List.mem_singleton] at hf
    rw [hf]
    exact ⟨s, unitsOf_toNat s⟩
  read_null := rfl

def bool : Wire Bool Bool where
  write b := .bool b
  read
    | .bool b => some b
    | _ => none
  meant b := b
  height := 0
  reads b d h := by
    rw [h.bool_inv]
    rfl
  fits b depth f hf := by
    rw [Document.features] at hf
    exact absurd hf List.not_mem_nil
  read_null := rfl

/-- An unsigned number of so many bits; a literal with a sign, a fraction or an exponent is none. -/
def readUnsigned (bits : Nat) : Json → Option (BitVec bits)
  | .number l =>
      if l.isInteger = true ∧ l.negative = false ∧ l.magnitude < 2 ^ bits then
        some (BitVec.ofNat bits l.magnitude)
      else none
  | _ => none

theorem intLiteral_nat (n : Nat) : (intLiteral n).isInteger = true ∧
    (intLiteral n).negative = false ∧ (intLiteral n).magnitude = n := by
  refine ⟨rfl, ?_, ?_⟩
  · show decide ((n : Int) < 0) = false
    exact decide_eq_false (by omega)
  · rw [Literal.magnitude, intLiteral, Int.natAbs_natCast, ofDigits_toDigits]

def unsigned (bits : Nat) (hbits : bits ≤ 64) : Wire (BitVec bits) (BitVec bits) where
  write n := .int n.toNat
  read := readUnsigned bits
  meant n := n
  height := 0
  reads n d h := by
    obtain ⟨hinteger, hnegative, hmagnitude⟩ := intLiteral_nat n.toNat
    rw [h.int_inv, Document.toJson, readUnsigned, hmagnitude,
      if_pos ⟨hinteger, hnegative, n.isLt⟩, BitVec.ofNat_toNat, BitVec.setWidth_eq]
  fits n depth f hf := by
    obtain ⟨hinteger, hnegative, hmagnitude⟩ := intLiteral_nat n.toNat
    rw [Document.features, List.mem_singleton] at hf
    rw [hf]
    refine ⟨hinteger, hnegative, ?_⟩
    rw [hmagnitude]
    exact Nat.lt_of_lt_of_le n.isLt (Nat.pow_le_pow_right (by decide) hbits)
  read_null := rfl

theorem mapM_reads (w : Wire α β) {vs : List Document} {items : List α}
    (h : List.Forall₂ (fun v item => Reorders v (w.write item)) vs items) :
    (vs.map Document.toJson).mapM w.read = some (items.map w.meant) := by
  induction h with
  | nil => rfl
  | @cons v item vs items hv _ ih =>
      rw [List.map_cons, List.mapM_cons, w.reads item v hv, ih]
      rfl

/-- A list. -/
def list (w : Wire α β) : Wire (List α) (List β) where
  write items := .array (items.map w.write)
  read
    | .array items => items.mapM w.read
    | _ => none
  meant items := items.map w.meant
  height := w.height + 1
  reads items d h := by
    obtain ⟨vs, rfl, hall⟩ := h.array_inv
    rw [Document.toJson, itemsToJson_eq]
    exact mapM_reads w (List.forall₂_map_right_iff.mp hall)
  fits items depth f hf := by
    rw [Document.features, List.mem_cons, itemsFeatures_eq, List.mem_flatMap] at hf
    rcases hf with rfl | ⟨v, hv, hf⟩
    · show depth < depth + (w.height + 1)
      omega
    · obtain ⟨item, -, rfl⟩ := List.mem_map.mp hv
      exact (w.fits item (depth + 1) f hf).mono (by omega)
  read_null := rfl

/-- An entry of a map. -/
def entry (w : Wire α β) (p : List Char × α) : List UInt16 × Document :=
  (unitsOf p.1, w.write p.2)

def entryMeant (w : Wire α β) (p : List Char × α) : List Char × β := (p.1, w.meant p.2)

def readEntry (w : Wire α β) (p : List Nat × Json) : Option (List Char × β) :=
  (w.read p.2).map fun value => (textOf p.1, value)

theorem mapM_readEntry (w : Wire α β) {fs : List (List UInt16 × Document)}
    {entries : List (List Char × α)}
    (h : List.Forall₂ (fun f p => SameMember f (w.entry p)) fs entries) :
    (fieldsToJson fs).mapM w.readEntry = some (entries.map w.entryMeant) := by
  rw [fieldsToJson_eq]
  induction h with
  | nil => rfl
  | @cons f p fs entries hf _ ih =>
      obtain ⟨hkey, hvalue⟩ := hf
      have hread : w.readEntry (f.1.map UInt16.toNat, f.2.toJson) = some (w.entryMeant p) := by
        rw [readEntry, w.reads p.2 f.2 hvalue, hkey, entry, unitsOf_toNat, textOf_encode]
        rfl
      rw [List.map_cons, List.mapM_cons, hread, ih]
      rfl

/-- A map, as an object of its entries in the order in which they are listed. -/
def map (w : Wire α β) (entries : γ → List (List Char × α))
    (hnodup : ∀ m, ((entries m).map Prod.fst).Nodup) : Wire γ (SortedMap β) where
  write m := .object ((entries m).map w.entry)
  read
    | .object fields => (fields.mapM w.readEntry).map SortedMap.ofEntries
    | _ => none
  meant m := SortedMap.ofEntries ((entries m).map w.entryMeant)
  height := w.height + 1
  reads m d h := by
    obtain ⟨fs, hs, rfl, hsame, hperm⟩ := h.object_inv
    have hself : List.Forall₂ (fun q p => q = w.entry p) ((entries m).map w.entry) (entries m) :=
      List.forall₂_map_left_iff.mpr (List.forall₂_same.mpr fun _ _ => rfl)
    obtain ⟨others, hall, hothers⟩ := List.perm_comp_forall₂ hperm hself
    rw [← List.forall₂_map_right_iff, List.forall₂_eq_eq_eq] at hall
    rw [hall, List.forall₂_map_right_iff] at hsame
    have hkeys : ((others.map w.entryMeant).map Prod.fst).Nodup := by
      rw [List.map_map]
      exact (hothers.map Prod.fst).nodup_iff.mpr (hnodup m)
    rw [Document.toJson]
    show ((fieldsToJson fs).mapM w.readEntry).map SortedMap.ofEntries = _
    rw [mapM_readEntry w hsame, Option.map_some,
      SortedMap.ofEntries_congr (hothers.map w.entryMeant) hkeys]
  fits m depth f hf := by
    rw [Document.features, List.mem_cons, fieldsFeatures_eq, List.mem_flatMap] at hf
    rcases hf with rfl | ⟨field, hfield, hf⟩
    · show depth < depth + (w.height + 1)
      omega
    · obtain ⟨p, -, rfl⟩ := List.mem_map.mp hfield
      rcases List.mem_cons.mp hf with rfl | hf
      · exact ⟨p.1, unitsOf_toNat p.1⟩
      · exact (w.fits p.2 (depth + 1) f hf).mono (by omega)
  read_null := rfl

end Wire

/-! ## Records -/

/-- The members a record may have; one that is not set is not written. -/
abbrev Members := List (String × Option Document)

/-- The members of a record that are set. -/
def present (members : Members) : List (List UInt16 × Document) :=
  members.filterMap fun m => m.2.map fun v => (unitsOf m.1.toList, v)

def record (members : Members) : Document := .object (present members)

/-- Members that are set alike, to values that differ in the order of members only. -/
def SameMembers : Members → Members → Prop :=
  List.Forall₂ fun m n => m.1 = n.1 ∧ Option.Rel Reorders m.2 n.2

theorem SameMembers.present {ms ns : Members} (h : SameMembers ms ns) :
    List.Forall₂ SameMember (present ms) (present ns) := by
  induction h with
  | nil => exact .nil
  | @cons m n ms ns hmember _ ih =>
      obtain ⟨name, v⟩ := m
      obtain ⟨name', w⟩ := n
      obtain ⟨rfl, hvalue⟩ := hmember
      cases hvalue with
      | none => exact ih
      | some hvalue => exact .cons ⟨rfl, hvalue⟩ ih

/-- Records whose members differ in the order of their members only. -/
theorem Reorders.record {ms ns : Members} (h : SameMembers ms ns) :
    Reorders (record ms) (record ns) := by
  rw [Reorders, Json.record, Json.record, Document.normal, Document.normal,
    SameMember.normalFields_eq h.present]

/-- What is read of a record: the members that are set, each once, and no other. -/
structure ReadsAs (fields : List (List Nat × Json)) (members : Members) : Prop where
  nodup : (fields.map Prod.fst).Nodup
  set : ∀ name v, (name, some v) ∈ members →
    ∃ v', Reorders v' v ∧ field fields name = some v'.toJson
  unset : ∀ name, (name, none) ∈ members → field fields name = none

theorem unitsOf_eq_units {name : String} : (unitsOf name.toList).map UInt16.toNat = units name :=
  unitsOf_toNat name.toList

theorem mem_present {members : Members} {field : List UInt16 × Document} :
    field ∈ present members ↔
      ∃ name, (name, some field.2) ∈ members ∧ field.1 = unitsOf name.toList := by
  rw [present, List.mem_filterMap]
  constructor
  · rintro ⟨⟨name, v⟩, hm, hv⟩
    obtain ⟨v, rfl, rfl⟩ := Option.map_eq_some_iff.mp hv
    exact ⟨name, hm, rfl⟩
  · rintro ⟨name, hm, hkey⟩
    refine ⟨(name, some field.2), hm, ?_⟩
    rw [← hkey]
    rfl

theorem present_nodup {members : Members} (h : (members.map Prod.fst).Nodup) :
    ((present members).map Prod.fst).Nodup := by
  rw [List.Nodup, List.pairwise_map] at h
  rw [List.Nodup, List.pairwise_map, present, List.pairwise_filterMap]
  refine h.imp fun hne f hf g hg heq => hne ?_
  obtain ⟨v, -, rfl⟩ := Option.map_eq_some_iff.mp hf
  obtain ⟨w, -, rfl⟩ := Option.map_eq_some_iff.mp hg
  exact String.toList_inj.mp (unitsOf_injective heq)

theorem SameMember.exists_left {fs gs : List (List UInt16 × Document)}
    (h : List.Forall₂ SameMember fs gs) {g : List UInt16 × Document} (hg : g ∈ gs) :
    ∃ f ∈ fs, SameMember f g := by
  induction h with
  | nil => cases hg
  | cons hmember _ ih =>
      rcases List.mem_cons.mp hg with rfl | hg
      · exact ⟨_, List.mem_cons_self, hmember⟩
      · obtain ⟨f, hf, hsame⟩ := ih hg
        exact ⟨f, List.mem_cons_of_mem _ hf, hsame⟩

theorem fieldsToJson_keys (fs : List (List UInt16 × Document)) :
    (fieldsToJson fs).map Prod.fst = (fs.map Prod.fst).map (List.map UInt16.toNat) := by
  rw [fieldsToJson_eq, List.map_map, List.map_map]
  rfl

/-- A record in any order of its members is read as the record. -/
theorem reads_record {d : Document} {members : Members} (hnames : (members.map Prod.fst).Nodup)
    (h : Reorders d (record members)) :
    ∃ fs, d = .object fs ∧ ReadsAs (fieldsToJson fs) members := by
  obtain ⟨fs, hs, rfl, hsame, hperm⟩ := h.object_inv
  have hkeys : (fs.map Prod.fst).Perm ((present members).map Prod.fst) := by
    rw [SameMember.map_fst hsame]
    exact hperm.map Prod.fst
  have hnodup : ((fieldsToJson fs).map Prod.fst).Nodup := by
    rw [fieldsToJson_keys]
    exact (hkeys.nodup_iff.mpr (present_nodup hnames)).map fun _ _ => map_toNat_injective
  refine ⟨fs, rfl, hnodup, fun name v hv => ?_, fun name hnone => field_of_not_mem fun hmem => ?_⟩
  · have hpresent : (unitsOf name.toList, v) ∈ hs :=
      hperm.mem_iff.mpr (mem_present.mpr ⟨name, hv, rfl⟩)
    obtain ⟨f, hf, hmember⟩ := SameMember.exists_left hsame hpresent
    have hkey : f.1 = unitsOf name.toList := hmember.1
    refine ⟨f.2, hmember.2, field_of_mem hnodup ?_⟩
    rw [fieldsToJson_eq, ← unitsOf_eq_units, ← hkey]
    exact List.mem_map_of_mem hf
  · rw [fieldsToJson_keys, List.mem_map] at hmem
    obtain ⟨key, hkey, heq⟩ := hmem
    obtain ⟨field, hfield, rfl⟩ := List.mem_map.mp (hkeys.mem_iff.mp hkey)
    obtain ⟨other, hother, hkey⟩ := mem_present.mp hfield
    rw [hkey, unitsOf_eq_units] at heq
    obtain rfl := units_inj.mp heq
    cases List.inj_on_of_nodup_map hnames hother hnone rfl

/-! ### Fields -/

/-- A member that has to be there. -/
def required (read : Json → Option β) (fields : List (List Nat × Json)) (name : String) :
    Option β := (field fields name).bind read

/-- A member that may be left out, or be null. -/
def optional (read : Json → Option β) (fields : List (List Nat × Json)) (name : String) :
    Option (Option β) :=
  match field fields name with
  | none | some .null => some none
  | some v => (read v).map some

theorem ReadsAs.required {fields : List (List Nat × Json)} {members : Members}
    (h : ReadsAs fields members) (w : Wire α β) {name : String} {a : α}
    (hmember : (name, some (w.write a)) ∈ members) :
    required w.read fields name = some (w.meant a) := by
  obtain ⟨v, hv, hfield⟩ := h.set _ _ hmember
  rw [Json.required, hfield]
  exact w.reads a v hv

theorem ReadsAs.optional {fields : List (List Nat × Json)} {members : Members}
    (h : ReadsAs fields members) (w : Wire α β) {name : String} {a : Option α}
    (hmember : (name, a.map w.write) ∈ members) :
    optional w.read fields name = some (a.map w.meant) := by
  cases a with
  | none =>
      rw [Json.optional, h.unset name hmember]
      rfl
  | some a =>
      obtain ⟨v, hv, hfield⟩ := h.set _ _ hmember
      have hread := w.reads a v hv
      rw [Json.optional, hfield]
      cases hjson : v.toJson with
      | null =>
          rw [hjson, w.read_null] at hread
          cases hread
      | _ =>
          rw [hjson] at hread
          dsimp only
          rw [hread]
          rfl

/-- A member that nests no deeper than a height. -/
def MemberFits (height : Nat) (m : String × Option Document) : Prop :=
  ∀ v ∈ m.2, ∀ depth, ∀ f ∈ v.features depth, Fits (depth + height) f

theorem memberFits_required (w : Wire α β) {height : Nat} (hle : w.height ≤ height)
    (name : String) (a : α) : MemberFits height (name, some (w.write a)) := by
  intro v hv depth f hf
  obtain rfl := Option.some.inj hv
  exact (w.fits a depth f hf).mono (by omega)

theorem memberFits_optional (w : Wire α β) {height : Nat} (hle : w.height ≤ height)
    (name : String) (a : Option α) : MemberFits height (name, a.map w.write) := by
  cases a with
  | none =>
      intro v hv
      cases hv
  | some a => exact memberFits_required w hle name a

theorem MemberFits.mono {height height' : Nat} {m : String × Option Document}
    (h : MemberFits height m) (hle : height ≤ height') : MemberFits height' m :=
  fun v hv depth f hf => (h v hv depth f hf).mono (by omega)

/-- A record nests one deeper than its members. -/
theorem fits_record {members : Members} {height : Nat} (h : ∀ m ∈ members, MemberFits height m)
    (depth : Nat) {f : Feature} (hf : f ∈ (record members).features depth) :
    Fits (depth + (height + 1)) f := by
  rw [record, Document.features, List.mem_cons, fieldsFeatures_eq, List.mem_flatMap] at hf
  rcases hf with rfl | ⟨field, hfield, hf⟩
  · show depth < depth + (height + 1)
    omega
  · obtain ⟨name, hmember, hkey⟩ := mem_present.mp hfield
    rcases List.mem_cons.mp hf with rfl | hf
    · exact ⟨name.toList, by rw [hkey, unitsOf_toNat]⟩
    · exact (h _ hmember field.2 rfl (depth + 1) f hf).mono (by omega)

/-- Some fields of a record: their members, and how they are read. -/
structure Fields (α β : Type) where
  names : List String
  members : α → Members
  read : List (List Nat × Json) → Option β
  meant : α → β
  height : Nat
  members_names : ∀ a, (members a).map Prod.fst = names
  fits : ∀ a, ∀ m ∈ members a, MemberFits height m
  reads : ∀ (a : α) (fields : List (List Nat × Json)) (ms : Members),
    members a ⊆ ms → ReadsAs fields ms → read fields = some (meant a)

namespace Fields

def nil : Fields Unit Unit where
  names := []
  members _ := []
  read _ := some ()
  meant a := a
  height := 0
  members_names _ := rfl
  fits _ := List.forall_mem_nil _
  reads _ _ _ _ _ := rfl

/-- A field that is always written and has to be there. -/
def required (name : String) (w : Wire α β) (rest : Fields γ δ) : Fields (α × γ) (β × δ) where
  names := name :: rest.names
  members a := (name, some (w.write a.1)) :: rest.members a.2
  read fields := do
    let first ← Json.required w.read fields name
    let others ← rest.read fields
    some (first, others)
  meant a := (w.meant a.1, rest.meant a.2)
  height := max w.height rest.height
  members_names a := congrArg (name :: ·) (rest.members_names a.2)
  fits a := by
    rw [List.forall_mem_cons]
    refine ⟨memberFits_required w (le_max_left _ _) name a.1, fun m hm => ?_⟩
    exact (rest.fits a.2 m hm).mono (le_max_right _ _)
  reads a fields ms hms h := by
    rw [List.cons_subset] at hms
    rw [h.required w hms.1, rest.reads a.2 fields ms hms.2 h]
    rfl

/-- A field that is left out where it is not set. -/
def optional (name : String) (w : Wire α β) (rest : Fields γ δ) :
    Fields (Option α × γ) (Option β × δ) where
  names := name :: rest.names
  members a := (name, a.1.map w.write) :: rest.members a.2
  read fields := do
    let first ← Json.optional w.read fields name
    let others ← rest.read fields
    some (first, others)
  meant a := (a.1.map w.meant, rest.meant a.2)
  height := max w.height rest.height
  members_names a := congrArg (name :: ·) (rest.members_names a.2)
  fits a := by
    rw [List.forall_mem_cons]
    refine ⟨memberFits_optional w (le_max_left _ _) name a.1, fun m hm => ?_⟩
    exact (rest.fits a.2 m hm).mono (le_max_right _ _)
  reads a fields ms hms h := by
    rw [List.cons_subset] at hms
    rw [h.optional w hms.1, rest.reads a.2 fields ms hms.2 h]
    rfl

@[simp]
theorem names_nil : nil.names = [] := rfl

@[simp]
theorem names_required (name : String) (w : Wire α β) (rest : Fields γ δ) :
    (required name w rest).names = name :: rest.names := rfl

@[simp]
theorem names_optional (name : String) (w : Wire α β) (rest : Fields γ δ) :
    (optional name w rest).names = name :: rest.names := rfl

end Fields

/-- No member of these names occurs twice. -/
def occurOnce (names : List String) (fields : List (List Nat × Json)) : Bool :=
  decide ((fields.map Prod.fst).filter fun key => (names.map units).contains key).Nodup

theorem occurOnce_of_nodup (names : List String) {fields : List (List Nat × Json)}
    (h : (fields.map Prod.fst).Nodup) : occurOnce names fields = true :=
  decide_eq_true (h.filter _)

/-- A record type, by its fields. -/
def Fields.struct {σ τ : Type} (fs : Fields α β) (hnames : fs.names.Nodup) (split : σ → α)
    (join : β → τ) : Wire σ τ where
  write a := record (fs.members (split a))
  read
    | .object fields => if occurOnce fs.names fields then (fs.read fields).map join else none
    | _ => none
  meant a := join (fs.meant (split a))
  height := fs.height + 1
  reads a d h := by
    have hnodup : ((fs.members (split a)).map Prod.fst).Nodup := by
      rw [fs.members_names]
      exact hnames
    obtain ⟨fields, rfl, hreads⟩ := reads_record hnodup h
    rw [Document.toJson]
    show (if occurOnce fs.names (fieldsToJson fields) then
      (fs.read (fieldsToJson fields)).map join else none) = _
    rw [if_pos (occurOnce_of_nodup fs.names hreads.nodup),
      fs.reads (split a) _ _ (List.Subset.refl _) hreads, Option.map_some]
  fits a depth f hf := fits_record (fs.fits (split a)) depth hf
  read_null := rfl

end FissionPlane.Lib.Json
