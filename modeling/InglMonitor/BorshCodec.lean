import InglMonitor.BorshFormat

/-! The writer and the readers of a schema, and the round trip between them: what is read back is the
value cut down to its declared members. -/

namespace Borsh

/-! ### The two directions -/

/-- `serialize`, with `none` where it throws. A number is an integer here, written little-endian in as many
bytes as are declared; the library does so below 2^53. -/
def encode : FieldType → Value → Option Bytes
  | .uint width, .num n => if 0 ≤ n ∧ n < 256 ^ width then some (leBytes width n.toNat) else none
  | .bool, .bool b => some [if b then 1 else 0]
  | .string, .str s => writeString s
  | .option _, .undefined => some [0]
  | .option t, v => (encode t v).map (1 :: ·)
  | .vec t, .array vs => do
      let count ← writeCount vs.length
      let body ← writeAll (encode t) vs
      return count ++ body
  | .fixedArray t size, .array vs => if vs.length = size then writeAll (encode t) vs else none
  | .map key value, .map entries => do
      let count ← writeCount entries.length
      let body ← writeAll (fun e => do
        let k ← encode key e.1
        let v ← encode value e.2
        return k ++ v) entries
      return count ++ body
  | .noMembers, _ => some []
  | .member name t rest, .object o => do
      let x ← encode t (Object.get o name)
      let xs ← encode rest (.object o)
      return x ++ xs
  | .variant tag t rest, .variant tag' v =>
      if tag' = tag then (encode t v).map (tag :: ·) else encode rest (.variant tag' v)
  | _, _ => none

/-- Put a member in front of those already read. -/
def consMember (name : String) (v : Value) : Value → Value
  | .object o => .object ((name, v) :: o)
  | w => w

/-- `deserialize`, with the bytes that are left; `none` where it throws. -/
def decode (reader : Reader) : FieldType → Bytes → Option (Value × Bytes)
  | .uint width, bs => (readNat width bs).map fun r => (.num r.1, r.2)
  | .bool, [] => none
  | .bool, b :: bs => (reader.flag b).map fun v => (.bool v, bs)
  | .string, bs => (readString reader bs).map fun r => (.str r.1, r.2)
  | .option _, [] => none
  | .option t, b :: bs => if b = 0 then some (.undefined, bs) else decode reader t bs
  | .vec t, bs => do
      let (n, bs) ← readNat 4 bs
      let (vs, bs) ← readAll (decode reader t) n bs
      return (.array vs, bs)
  | .fixedArray t size, bs => (readAll (decode reader t) size bs).map fun r => (.array r.1, r.2)
  | .map key value, bs => do
      let (n, bs) ← readNat 4 bs
      let (entries, bs) ← readAll (fun bs => do
        let (k, bs) ← decode reader key bs
        let (v, bs) ← decode reader value bs
        return ((k, v), bs)) n bs
      return (.map entries, bs)
  | .noMembers, bs => some (.object [], bs)
  | .member name t rest, bs => do
      let (v, bs) ← decode reader t bs
      let (o, bs) ← decode reader rest bs
      return (consMember name v o, bs)
  | .noVariants, _ => none
  | .variant _ _ _, [] => none
  | .variant tag t rest, b :: bs =>
      if b = tag then (decode reader t bs).map fun r => (.variant tag r.1, r.2)
      else decode reader rest (b :: bs)

/-- What the schema sees of a value: of an object, the declared members in schema order. -/
def view : FieldType → Value → Value
  | .uint _, v => v
  | .bool, v => v
  | .string, v => v
  | .option _, .undefined => .undefined
  | .option t, v => view t v
  | .vec t, .array vs => .array (vs.map (view t))
  | .fixedArray t _, .array vs => .array (vs.map (view t))
  | .map key value, .map entries => .map (entries.map fun e => (view key e.1, view value e.2))
  | .noMembers, _ => .object []
  | .member name t rest, .object o =>
      consMember name (view t (Object.get o name)) (view rest (.object o))
  | .variant tag t rest, .variant tag' v =>
      if tag' = tag then .variant tag (view t v) else view rest (.variant tag' v)
  | _, v => v

theorem encode_option_of_ne {t : FieldType} {v : Value} (h : v ≠ .undefined) :
    encode (.option t) v = (encode t v).map (1 :: ·) := by
  cases v <;> first | rfl | exact absurd rfl h

theorem view_option_of_ne {t : FieldType} {v : Value} (h : v ≠ .undefined) :
    view (.option t) v = view t v := by
  cases v <;> first | rfl | exact absurd rfl h

/-- The bytes of an instance under a hierarchy start with its variant byte. -/
theorem encode_isVariants {t : FieldType} (ht : t.isVariants) {tag : UInt8} {v : Value} {bs : Bytes}
    (hwf : t.wellFormed) (h : encode t (.variant tag v) = some bs) : ∃ x, bs = tag :: x := by
  induction t with
  | noVariants => simp [encode] at h
  | variant tag' t rest _ ih =>
      simp only [FieldType.wellFormed, Bool.and_eq_true] at hwf
      rw [encode] at h
      split at h
      · obtain ⟨x, -, rfl⟩ := Option.map_eq_some_iff.mp h
        exact ⟨x, congrArg (· :: x) (Eq.symm ‹_›)⟩
      · exact ih hwf.2 hwf.1.2 h
  | _ => simp [FieldType.isVariants] at ht

/-- **Round trip.** Whatever is written reads back as its declared part, and the reader stops where
the writer did. -/
theorem decode_encode {reader : Reader} {t : FieldType} (hwf : t.wellFormed) {v : Value} {bs : Bytes}
    (h : encode t v = some bs) (rest : Bytes) :
    decode reader t (bs ++ rest) = some (view t v, rest) := by
  induction t generalizing v bs rest with
  | uint width =>
      cases v <;> simp only [encode, reduceCtorEq] at h
      rename_i n
      split at h
      · rename_i hn
        cases h
        have hlt : n.toNat < 256 ^ width := (Int.toNat_lt hn.1).mpr (by simpa using hn.2)
        rw [decode, readNat_leBytes hlt, Option.map_some, Int.toNat_of_nonneg hn.1, view]
      · cases h
  | bool =>
      cases v <;> simp only [encode, reduceCtorEq, Option.some.injEq] at h
      subst h
      rename_i b
      cases b with
      | false => rw [if_neg Bool.false_ne_true, List.singleton_append, decode, reader.flag_zero]; rfl
      | true => rw [if_pos rfl, List.singleton_append, decode, reader.flag_one]; rfl
  | string =>
      cases v <;> simp only [encode, reduceCtorEq] at h
      rw [decode, readString_writeString h, Option.map_some, view]
  | option t ih =>
      by_cases hv : v = .undefined
      · subst hv
        cases h
        rfl
      · rw [encode_option_of_ne hv] at h
        obtain ⟨x, hx, rfl⟩ := Option.map_eq_some_iff.mp h
        rw [view_option_of_ne hv]
        exact ih hwf hx rest
  | vec t ih =>
      cases v <;> simp only [encode, reduceCtorEq] at h
      obtain ⟨bs', hcount, hbody⟩ := readAll_writeCount (fun _ _ rest hx => ih hwf hx rest) h rest
      rw [decode, view]
      exact Option.bind_eq_some_iff.mpr ⟨_, hcount, Option.bind_eq_some_iff.mpr ⟨_, hbody, rfl⟩⟩
  | fixedArray t size ih =>
      cases v <;> simp only [encode, reduceCtorEq] at h
      split at h
      · rename_i hsize
        subst hsize
        rw [decode, readAll_writeAll (fun _ _ rest hx => ih hwf hx rest) h, Option.map_some, view]
      · cases h
  | map key value ihk ihv =>
      simp only [FieldType.wellFormed, Bool.and_eq_true] at hwf
      cases v <;> simp only [encode, reduceCtorEq] at h
      have hkey (v : Value) (bs rest : Bytes) (hk : encode key v = some bs) :
          decode reader key (bs ++ rest) = some (view key v, rest) := ihk hwf.1 hk rest
      have hvalue (v : Value) (bs rest : Bytes) (hv : encode value v = some bs) :
          decode reader value (bs ++ rest) = some (view value v, rest) := ihv hwf.2 hv rest
      obtain ⟨bs', hcount, hbody⟩ := readAll_writeCount (readPair_writePair hkey hvalue) h rest
      rw [decode, view]
      exact Option.bind_eq_some_iff.mpr ⟨_, hcount, Option.bind_eq_some_iff.mpr ⟨_, hbody, rfl⟩⟩
  | noMembers =>
      simp only [encode, Option.some.injEq] at h
      subst h
      rfl
  | member name t tail iht ihtail =>
      simp only [FieldType.wellFormed, Bool.and_eq_true] at hwf
      cases v <;> simp only [encode, reduceCtorEq] at h
      obtain ⟨x, hx, h⟩ := Option.bind_eq_some_iff.mp h
      obtain ⟨xs, hxs, h⟩ := Option.bind_eq_some_iff.mp h
      cases h
      simp only [decode, List.append_assoc, iht hwf.1.1.1 hx, ihtail hwf.1.1.2 hxs, Option.bind_eq_bind,
        Option.bind_some, Option.pure_def, view]
  | noVariants => simp [encode] at h
  | variant tag t tail iht ihtail =>
      simp only [FieldType.wellFormed, Bool.and_eq_true] at hwf
      cases v <;> simp only [encode, reduceCtorEq] at h
      rename_i tag' v
      by_cases htag : tag' = tag
      · rw [if_pos htag] at h
        obtain ⟨x, hx, rfl⟩ := Option.map_eq_some_iff.mp h
        simp only [List.cons_append, decode, if_true, iht hwf.1.1 hx, Option.map_some, view, htag]
      · rw [if_neg htag] at h
        -- a variant of a later class starts with that class's own tag
        obtain ⟨x, rfl⟩ := encode_isVariants hwf.2 hwf.1.2 h
        have hread := ihtail hwf.1.2 h rest
        rw [List.cons_append] at hread ⊢
        rw [decode, if_neg htag, hread, view, if_neg htag]

end Borsh
