import Mathlib.Algebra.Group.Int.Defs
import Mathlib.Algebra.Group.Nat.Defs
import Mathlib.Algebra.GroupWithZero.Nat
import Mathlib.Data.List.Basic
import Mathlib.Data.List.Nodup

/-! The borsh binary format, read from a schema. A schema lists the members of a class in wire order,
inherited members first; a class hierarchy is a choice between variant bytes, one level for each level
of the hierarchy. Writing reads the members of an object by name and fails on a member that is unset
or out of range; reading gives the declared members in schema order. -/

namespace Borsh

abbrev Bytes := List UInt8

def leBytes : Nat → Nat → Bytes
  | 0, _ => []
  | width + 1, n => UInt8.ofNat n :: leBytes width (n / 256)

def leNat : Bytes → Nat
  | [] => 0
  | b :: bs => b.toNat + 256 * leNat bs

@[simp] theorem leBytes_length (width n : Nat) : (leBytes width n).length = width := by
  induction width generalizing n with
  | zero => rfl
  | succ width ih => simp [leBytes, ih]

theorem leBytes_add (a b n : Nat) : leBytes (a + b) n = leBytes a n ++ leBytes b (n / 256 ^ a) := by
  induction a generalizing n with
  | zero => simp [leBytes]
  | succ a ih =>
      rw [Nat.succ_add, leBytes, ih, leBytes, List.cons_append, Nat.div_div_eq_div_mul, Nat.pow_succ']

theorem leNat_leBytes (width n : Nat) : leNat (leBytes width n) = n % 256 ^ width := by
  induction width generalizing n with
  | zero => simp [leBytes, leNat, Nat.mod_one]
  | succ width ih =>
      have hbyte : (UInt8.ofNat n).toNat = n % 256 := UInt8.toNat_ofNat'
      rw [leBytes, leNat, ih, hbyte, Nat.pow_succ', Nat.mod_mul]

theorem leNat_leBytes_of_lt {width n : Nat} (h : n < 256 ^ width) :
    leNat (leBytes width n) = n := by
  rw [leNat_leBytes, Nat.mod_eq_of_lt h]

theorem leNat_lt (bs : Bytes) : leNat bs < 256 ^ bs.length := by
  induction bs with
  | nil => exact Nat.one_pos
  | cons b bs ih =>
      have hbyte := b.toNat_lt
      rw [leNat, List.length_cons, Nat.pow_succ]
      omega

/-- The next `n` bytes and what follows them. -/
def takeBytes (n : Nat) (bs : Bytes) : Option (Bytes × Bytes) :=
  if n ≤ bs.length then some (bs.take n, bs.drop n) else none

theorem takeBytes_append {n : Nat} {bs : Bytes} (h : bs.length = n) (rest : Bytes) :
    takeBytes n (bs ++ rest) = some (bs, rest) := by
  subst h
  simp [takeBytes]

def readNat (width : Nat) (bs : Bytes) : Option (Nat × Bytes) :=
  (takeBytes width bs).map fun r => (leNat r.1, r.2)

theorem readNat_leBytes {width n : Nat} (h : n < 256 ^ width) (rest : Bytes) :
    readNat width (leBytes width n ++ rest) = some (n, rest) := by
  rw [readNat, takeBytes_append (leBytes_length width n), Option.map_some, leNat_leBytes_of_lt h]

theorem readNat_lt {width n : Nat} {bs rest : Bytes} (h : readNat width bs = some (n, rest)) :
    n < 256 ^ width := by
  obtain ⟨⟨front, rest'⟩, htake, hn⟩ := Option.map_eq_some_iff.mp h
  obtain ⟨hle, hfront⟩ := Option.ite_none_right_eq_some.mp htake
  cases hfront
  cases hn
  have hlt := leNat_lt (bs.take width)
  rwa [List.length_take, Nat.min_eq_left hle] at hlt

/-- The count in front of a string, a vector or a map. -/
def writeCount (n : Nat) : Option Bytes := if n < 256 ^ 4 then some (leBytes 4 n) else none

theorem writeCount_of_lt {n : Nat} (h : n < 256 ^ 4) : writeCount n = some (leBytes 4 n) :=
  if_pos h

theorem readNat_writeCount {n : Nat} {bs : Bytes} (h : writeCount n = some bs) (rest : Bytes) :
    readNat 4 (bs ++ rest) = some (n, rest) := by
  rw [writeCount] at h
  split at h
  · cases h
    exact readNat_leBytes ‹_› rest
  · cases h

theorem writeCount_length {n : Nat} {bs : Bytes} (h : writeCount n = some bs) : bs.length = 4 := by
  rw [writeCount, Option.ite_none_right_eq_some] at h
  cases h.2
  exact leBytes_length 4 n

def utf8 (s : String) : Bytes := s.toUTF8.data.toList

def ofUtf8 (bs : Bytes) : Option String := String.fromUTF8? ⟨bs.toArray⟩

@[simp] theorem ofUtf8_utf8 (s : String) : ofUtf8 (utf8 s) = some s := by
  have h : (⟨(utf8 s).toArray⟩ : ByteArray) = s.toByteArray := by simp [utf8]
  rw [ofUtf8, h, String.fromUTF8?, dif_pos s.isValidUTF8]
  rfl

theorem utf8_of_ofUtf8 {bs : Bytes} {s : String} (h : ofUtf8 bs = some s) : utf8 s = bs := by
  rw [ofUtf8, String.fromUTF8?] at h
  split at h
  · cases h
    simp [utf8, String.fromUTF8]
  · cases h

def writeString (s : String) : Option Bytes := (writeCount (utf8 s).length).map (· ++ utf8 s)

theorem writeString_length {s : String} {bs : Bytes} (h : writeString s = some bs) :
    bs.length = 4 + (utf8 s).length := by
  obtain ⟨count, hcount, rfl⟩ := Option.map_eq_some_iff.mp h
  rw [List.length_append, writeCount_length hcount]

/-- A reader gives back what a writer makes. What it does with a flag or a text that no writer makes, and
with bytes behind the last member, is its own. -/
structure Reader where
  /-- Whether bytes behind the last member are allowed. -/
  allowTrailing : Bool
  flag : UInt8 → Option Bool
  text : Bytes → Option String
  flag_zero : flag 0 = some false
  flag_one : flag 1 = some true
  text_utf8 : ∀ s, text (utf8 s) = some s
  /-- Whatever a text is read from, it can be written. -/
  text_length : ∀ bs s, text bs = some s → bs.length < 256 ^ 4 → (utf8 s).length < 256 ^ 4

/-- Every flag but 0 is set, and a text has to be UTF-8. -/
def Reader.plain (allowTrailing : Bool) : Reader where
  allowTrailing := allowTrailing
  flag := fun b => some (b != 0)
  text := ofUtf8
  flag_zero := rfl
  flag_one := rfl
  text_utf8 := ofUtf8_utf8
  text_length := fun bs s h hlt => by rwa [utf8_of_ofUtf8 h]

def readString (reader : Reader) (bs : Bytes) : Option (String × Bytes) := do
  let (n, bs) ← readNat 4 bs
  let (x, bs) ← takeBytes n bs
  let s ← reader.text x
  return (s, bs)

theorem readString_writeString {reader : Reader} {s : String} {bs : Bytes} (h : writeString s = some bs)
    (rest : Bytes) : readString reader (bs ++ rest) = some (s, rest) := by
  obtain ⟨count, hcount, rfl⟩ := Option.map_eq_some_iff.mp h
  simp only [readString, List.append_assoc, readNat_writeCount hcount, takeBytes_append rfl,
    reader.text_utf8, Option.bind_eq_bind, Option.bind_some, Option.pure_def]

section Sequences

variable {α β : Type} {write : α → Option Bytes} {read : Bytes → Option (β × Bytes)} {view : α → β}

def writeAll (write : α → Option Bytes) : List α → Option Bytes
  | [] => some []
  | v :: vs => do
      let x ← write v
      let xs ← writeAll write vs
      return x ++ xs

def readAll (read : Bytes → Option (β × Bytes)) : Nat → Bytes → Option (List β × Bytes)
  | 0, bs => some ([], bs)
  | n + 1, bs => do
      let (v, bs) ← read bs
      let (vs, bs) ← readAll read n bs
      return (v :: vs, bs)

theorem readAll_writeAll
    (hread : ∀ v bs rest, write v = some bs → read (bs ++ rest) = some (view v, rest))
    {vs : List α} {bs : Bytes} (h : writeAll write vs = some bs) (rest : Bytes) :
    readAll read vs.length (bs ++ rest) = some (vs.map view, rest) := by
  induction vs generalizing bs with
  | nil => cases h; rfl
  | cons v vs ih =>
      obtain ⟨x, hx, h⟩ := Option.bind_eq_some_iff.mp h
      obtain ⟨xs, hxs, h⟩ := Option.bind_eq_some_iff.mp h
      cases h
      simp only [List.length_cons, readAll, List.append_assoc, hread v x _ hx, ih hxs,
        Option.bind_eq_bind, Option.bind_some, Option.pure_def, List.map_cons]

/-- A sequence behind its count. -/
theorem readAll_writeCount
    (hread : ∀ v bs rest, write v = some bs → read (bs ++ rest) = some (view v, rest))
    {vs : List α} {bs : Bytes}
    (h : (do let count ← writeCount vs.length; let body ← writeAll write vs; return count ++ body) =
      some bs) (rest : Bytes) :
    ∃ bs', readNat 4 (bs ++ rest) = some (vs.length, bs') ∧
      readAll read vs.length bs' = some (vs.map view, rest) := by
  obtain ⟨count, hcount, h⟩ := Option.bind_eq_some_iff.mp h
  obtain ⟨body, hbody, h⟩ := Option.bind_eq_some_iff.mp h
  cases h
  rw [List.append_assoc]
  exact ⟨body ++ rest, readNat_writeCount hcount _, readAll_writeAll hread hbody rest⟩

theorem writeAll_isSome {vs : List α} (h : ∀ v ∈ vs, ∃ bs, write v = some bs) :
    ∃ bs, writeAll write vs = some bs := by
  induction vs with
  | nil => exact ⟨[], rfl⟩
  | cons v vs ih =>
      obtain ⟨x, hx⟩ := h v List.mem_cons_self
      obtain ⟨xs, hxs⟩ := ih fun w hw => h w (List.mem_cons_of_mem v hw)
      exact ⟨x ++ xs, by simp [writeAll, hx, hxs]⟩

theorem writeCount_writeAll_isSome {vs : List α} (hlt : vs.length < 256 ^ 4)
    (h : ∀ v ∈ vs, ∃ bs, write v = some bs) :
    ∃ bs, (do let count ← writeCount vs.length; let body ← writeAll write vs; return count ++ body) =
      some bs := by
  obtain ⟨body, hbody⟩ := writeAll_isSome h
  exact ⟨leBytes 4 vs.length ++ body, by rw [writeCount_of_lt hlt, hbody]; rfl⟩

theorem exists_write_of_writeAll {vs : List α} {bs : Bytes} (h : writeAll write vs = some bs) :
    ∀ v ∈ vs, ∃ x, write v = some x := by
  induction vs generalizing bs with
  | nil => exact List.forall_mem_nil _
  | cons v vs ih =>
      obtain ⟨x, hx, h⟩ := Option.bind_eq_some_iff.mp h
      obtain ⟨xs, hxs, -⟩ := Option.bind_eq_some_iff.mp h
      exact List.forall_mem_cons.mpr ⟨⟨x, hx⟩, ih hxs⟩

theorem writeAll_map {γ : Type} (f : γ → α) (vs : List γ) :
    writeAll write (vs.map f) = writeAll (fun v => write (f v)) vs := by
  induction vs with
  | nil => rfl
  | cons v vs ih => rw [List.map_cons, writeAll, ih, writeAll]

theorem writeAll_length {size : α → Nat} (hsize : ∀ v bs, write v = some bs → bs.length = size v)
    {vs : List α} {bs : Bytes} (h : writeAll write vs = some bs) : bs.length = (vs.map size).sum := by
  induction vs generalizing bs with
  | nil =>
      cases h
      rfl
  | cons v vs ih =>
      obtain ⟨x, hx, h⟩ := Option.bind_eq_some_iff.mp h
      obtain ⟨xs, hxs, h⟩ := Option.bind_eq_some_iff.mp h
      cases h
      rw [List.length_append, hsize v x hx, ih hxs, List.map_cons, List.sum_cons]

variable {α' β' : Type} {write' : α' → Option Bytes} {read' : Bytes → Option (β' × Bytes)}
  {view' : α' → β'}

/-- An entry of a map: a key, and a value behind it. -/
def writePair (write : α → Option Bytes) (write' : α' → Option Bytes) (e : α × α') : Option Bytes := do
  let k ← write e.1
  let v ← write' e.2
  return k ++ v

def readPair (read : Bytes → Option (β × Bytes)) (read' : Bytes → Option (β' × Bytes)) (bs : Bytes) :
    Option ((β × β') × Bytes) := do
  let (k, bs) ← read bs
  let (v, bs) ← read' bs
  return ((k, v), bs)

theorem readPair_writePair
    (hread : ∀ v bs rest, write v = some bs → read (bs ++ rest) = some (view v, rest))
    (hread' : ∀ v bs rest, write' v = some bs → read' (bs ++ rest) = some (view' v, rest))
    (e : α × α') (bs rest : Bytes) (h : writePair write write' e = some bs) :
    readPair read read' (bs ++ rest) = some ((view e.1, view' e.2), rest) := by
  obtain ⟨k, hk, h⟩ := Option.bind_eq_some_iff.mp h
  obtain ⟨v, hv, h⟩ := Option.bind_eq_some_iff.mp h
  cases h
  simp only [readPair, List.append_assoc, hread e.1 k _ hk, hread' e.2 v rest hv, Option.bind_eq_bind,
    Option.bind_some, Option.pure_def]

theorem writePair_isSome {e : α × α'} (h : ∃ bs, write e.1 = some bs) (h' : ∃ bs, write' e.2 = some bs) :
    ∃ bs, writePair write write' e = some bs := by
  obtain ⟨k, hk⟩ := h
  obtain ⟨v, hv⟩ := h'
  exact ⟨k ++ v, by rw [writePair, hk, hv]; rfl⟩

end Sequences

/-! ### Schemas and values -/

inductive FieldType where
  | uint (width : Nat)
  | bool
  | string
  | option (t : FieldType)
  | vec (t : FieldType)
  | fixedArray (t : FieldType) (size : Nat)
  | map (key value : FieldType)
  /-- A class with no further member. -/
  | noMembers
  | member (name : String) (t rest : FieldType)
  /-- A hierarchy with no further variant. -/
  | noVariants
  | variant (tag : UInt8) (t rest : FieldType)
  deriving DecidableEq

namespace FieldType

abbrev u8 : FieldType := .uint 1
abbrev u16 : FieldType := .uint 2
abbrev u32 : FieldType := .uint 4
abbrev u64 : FieldType := .uint 8

end FieldType

namespace FieldType

def isMembers : FieldType → Bool
  | .noMembers | .member .. => true
  | _ => false

def isVariants : FieldType → Bool
  | .noVariants | .variant .. => true
  | _ => false

def memberNames : FieldType → List String
  | .member name _ rest => name :: rest.memberNames
  | _ => []

/-- Numbers and texts, and sequences of such. -/
def isPlain : FieldType → Bool
  | .uint _ | .bool | .string => true
  | .vec t | .fixedArray t _ => t.isPlain
  | _ => false

/-- Members follow members under distinct names, and variants follow variants. -/
def wellFormed : FieldType → Bool
  | .option t | .vec t | .fixedArray t _ => t.wellFormed
  | .map key value => key.wellFormed && value.wellFormed
  | .member name t rest =>
      t.wellFormed && rest.wellFormed && rest.isMembers && !rest.memberNames.contains name
  | .variant _ t rest => t.wellFormed && rest.wellFormed && rest.isVariants
  | _ => true

end FieldType

/-- The members of a class with their types, in wire order. -/
abbrev Fields := List (String × FieldType)

def struct (fields : Fields) : FieldType :=
  fields.foldr (fun f rest => .member f.1 f.2 rest) .noMembers

def variants (classes : List (UInt8 × FieldType)) : FieldType :=
  classes.foldr (fun c rest => .variant c.1 c.2 rest) .noVariants

@[simp] theorem struct_nil : struct [] = .noMembers := rfl

@[simp] theorem struct_cons (f : String × FieldType) (fields : Fields) :
    struct (f :: fields) = .member f.1 f.2 (struct fields) := rfl

@[simp] theorem variants_cons (c : UInt8 × FieldType) (classes : List (UInt8 × FieldType)) :
    variants (c :: classes) = .variant c.1 c.2 (variants classes) := rfl

/-- The values a program hands to the writer: numbers (of any width), maps in insertion order, objects
by their properties, and instances of a class that stands under a variant byte. -/
inductive Value where
  | undefined
  | num (n : Int)
  | bool (b : Bool)
  | str (s : String)
  | array (vs : List Value)
  | map (entries : List (Value × Value))
  | object (properties : List (String × Value))
  | variant (tag : UInt8) (v : Value)

/-- The properties of an object; the first binding of a name is the current one. -/
abbrev Object := List (String × Value)

namespace Object

/-- Reading a property that was never set gives `undefined`. -/
def get (o : Object) (name : String) : Value := (List.lookup name o).getD .undefined

def set (o : Object) (name : String) (v : Value) : Object := (name, v) :: o

/-- `Object.assign(o, properties)`. -/
def assign (o properties : Object) : Object := properties ++ o

@[simp] theorem get_nil (name : String) : get [] name = .undefined := rfl

@[simp] theorem get_cons (p : String × Value) (o : Object) (name : String) :
    get (p :: o) name = if name = p.1 then p.2 else get o name := by
  obtain ⟨key, v⟩ := p
  by_cases h : name = key
  · simp [get, h]
  · have hne : (name == key) = false := beq_false_of_ne h
    simp [get, List.lookup_cons, h, hne]

@[simp] theorem get_set (o : Object) (key name : String) (v : Value) :
    get (set o key v) name = if name = key then v else get o name :=
  get_cons (key, v) o name

/-- An assigned property wins over an earlier one, also when it is `undefined`. -/
theorem get_assign (o properties : Object) (name : String) :
    get (assign o properties) name =
      if name ∈ properties.map Prod.fst then get properties name else get o name := by
  induction properties with
  | nil => simp [assign]
  | cons p properties ih =>
      simp only [assign, List.cons_append, get_cons, List.map_cons, List.mem_cons] at ih ⊢
      by_cases h : name = p.1
      · simp [h]
      · simp only [h, if_false, false_or]
        exact ih

/-- A property an object does not have reads as `undefined`. -/
theorem get_of_not_mem {o : Object} {name : String} (h : name ∉ o.map Prod.fst) :
    get o name = .undefined := by
  induction o with
  | nil => rfl
  | cons p o ih =>
      rw [List.map_cons, List.mem_cons, not_or] at h
      rw [get_cons, if_neg h.1, ih h.2]

end Object

end Borsh
