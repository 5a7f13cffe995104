import InglMonitor.BorshCodec

/-! Values of a declared type, and schemas member by member. A value of its declared type is always
written, and it reads back unchanged; a class is written exactly when each of its members is. -/

namespace Borsh

/-- The values a declaration admits: numbers in range, lengths a `u32` can count, objects with
exactly the declared members in declaration order. -/
def HasType : FieldType → Value → Prop
  | .uint width, .num n => 0 ≤ n ∧ n < 256 ^ width
  | .bool, .bool _ => True
  | .string, .str s => (utf8 s).length < 256 ^ 4
  | .option t, v => v = .undefined ∨ HasType t v
  | .vec t, .array vs => vs.length < 256 ^ 4 ∧ ∀ v ∈ vs, HasType t v
  | .fixedArray t size, .array vs => vs.length = size ∧ ∀ v ∈ vs, HasType t v
  | .map key value, .map entries => entries.length < 256 ^ 4 ∧ (entries.map Prod.fst).Nodup ∧
      ∀ e ∈ entries, HasType key e.1 ∧ HasType value e.2
  | .noMembers, .object o => o = []
  | .member name t rest, .object ((name', v) :: o) =>
      name' = name ∧ HasType t v ∧ HasType rest (.object o)
  | .variant tag t rest, .variant tag' v =>
      if tag' = tag then HasType t v else HasType rest (.variant tag' v)
  | _, _ => False

/-- Members are read by name: properties of other names do not matter. -/
theorem encode_members_congr {t : FieldType} (ht : t.isMembers) (hwf : t.wellFormed) {o o' : Object}
    (h : ∀ name ∈ t.memberNames, Object.get o name = Object.get o' name) :
    encode t (.object o) = encode t (.object o') ∧ view t (.object o) = view t (.object o') := by
  induction t with
  | noMembers => exact ⟨rfl, rfl⟩
  | member name t rest _ ih =>
      simp only [FieldType.wellFormed, Bool.and_eq_true] at hwf
      have hrest := ih hwf.1.2 hwf.1.1.2 fun n hn => h n (List.mem_cons_of_mem name hn)
      have hname := h name List.mem_cons_self
      simp only [encode, view, hname, hrest.1, hrest.2, and_self]
  | _ => simp [FieldType.isMembers] at ht

/-- A property whose name no member has can be left out. -/
theorem encode_view_cons {t : FieldType} (ht : t.isMembers) (hwf : t.wellFormed) {name : String}
    (hname : name ∉ t.memberNames) (v : Value) (o : Object) :
    encode t (.object ((name, v) :: o)) = encode t (.object o) ∧
      view t (.object ((name, v) :: o)) = view t (.object o) := by
  refine encode_members_congr ht hwf fun n hn => ?_
  rw [Object.get_cons, if_neg]
  rintro rfl
  exact hname hn

theorem not_mem_of_not_contains {name : String} {names : List String}
    (h : (!names.contains name) = true) : name ∉ names := by
  simpa using h

/-- **Completeness of the writer.** A value of its declared type is written, and the schema sees all
of it. -/
theorem encode_of_hasType {t : FieldType} (hwf : t.wellFormed) {v : Value} (h : HasType t v) :
    (∃ bs, encode t v = some bs) ∧ view t v = v := by
  induction t generalizing v with
  | uint width =>
      cases v <;> simp only [HasType] at h
      exact ⟨⟨_, if_pos h⟩, rfl⟩
  | bool =>
      cases v <;> simp only [HasType] at h
      exact ⟨⟨_, rfl⟩, rfl⟩
  | string =>
      cases v <;> simp only [HasType] at h
      exact ⟨⟨_, by rw [encode, writeString, writeCount_of_lt h, Option.map_some]⟩, rfl⟩
  | option t ih =>
      by_cases hv : v = .undefined
      · subst hv
        exact ⟨⟨_, rfl⟩, rfl⟩
      · simp only [HasType, hv, false_or] at h
        obtain ⟨⟨bs, hbs⟩, hview⟩ := ih hwf h
        exact ⟨⟨1 :: bs, by rw [encode_option_of_ne hv, hbs, Option.map_some]⟩,
          by rw [view_option_of_ne hv, hview]⟩
  | vec t ih =>
      cases v <;> simp only [HasType] at h
      refine ⟨writeCount_writeAll_isSome h.1 fun v hv => (ih hwf (h.2 v hv)).1, ?_⟩
      rw [view, List.map_congr_left fun v hv => (ih hwf (h.2 v hv)).2, List.map_id']
  | fixedArray t size ih =>
      cases v <;> simp only [HasType] at h
      obtain ⟨body, hbody⟩ := writeAll_isSome fun v hv => (ih hwf (h.2 v hv)).1
      refine ⟨⟨_, by rw [encode, if_pos h.1, hbody]⟩, ?_⟩
      rw [view, List.map_congr_left fun v hv => (ih hwf (h.2 v hv)).2, List.map_id']
  | map key value ihk ihv =>
      cases v <;> simp only [HasType] at h
      rename_i entries
      simp only [FieldType.wellFormed, Bool.and_eq_true] at hwf
      have hentry (e : Value × Value) (he : e ∈ entries) :
          ∃ bs, writePair (encode key) (encode value) e = some bs :=
        writePair_isSome (ihk hwf.1 (h.2.2 e he).1).1 (ihv hwf.2 (h.2.2 e he).2).1
      have hview (e : Value × Value) (he : e ∈ entries) : (view key e.1, view value e.2) = e :=
        Prod.ext (ihk hwf.1 (h.2.2 e he).1).2 (ihv hwf.2 (h.2.2 e he).2).2
      refine ⟨writeCount_writeAll_isSome h.1 hentry, ?_⟩
      rw [view, List.map_congr_left hview, List.map_id']
  | noMembers =>
      cases v <;> simp only [HasType] at h
      subst h
      exact ⟨⟨_, rfl⟩, rfl⟩
  | member name t rest iht ihrest =>
      cases v with
      | object o =>
          cases o with
          | nil => simp [HasType] at h
          | cons p o =>
              obtain ⟨name', v⟩ := p
              obtain ⟨rfl, hv, ho⟩ := h
              simp only [FieldType.wellFormed, Bool.and_eq_true] at hwf
              obtain ⟨⟨x, hx⟩, hviewx⟩ := iht hwf.1.1.1 hv
              obtain ⟨⟨xs, hxs⟩, hviewo⟩ := ihrest hwf.1.1.2 ho
              obtain ⟨hdrop, hdropview⟩ :=
                encode_view_cons hwf.1.2 hwf.1.1.2 (not_mem_of_not_contains hwf.2) v o
              have hget : Object.get ((name', v) :: o) name' = v := by
                rw [Object.get_cons, if_pos rfl]
              refine ⟨⟨x ++ xs, by rw [encode, hget, hx, hdrop, hxs]; rfl⟩, ?_⟩
              rw [view, hget, hviewx, hdropview, hviewo, consMember]
      | _ => simp [HasType] at h
  | noVariants => simp [HasType] at h
  | variant tag t rest iht ihrest =>
      cases v with
      | variant tag' v =>
          simp only [FieldType.wellFormed, Bool.and_eq_true] at hwf
          rw [HasType] at h
          by_cases htag : tag' = tag
          · rw [if_pos htag] at h
            obtain ⟨⟨x, hx⟩, hview⟩ := iht hwf.1.1 h
            exact ⟨⟨tag :: x, by rw [encode, if_pos htag, hx, Option.map_some]⟩,
              by rw [view, if_pos htag, hview, htag]⟩
          · rw [if_neg htag] at h
            obtain ⟨⟨x, hx⟩, hview⟩ := ihrest hwf.1.2 h
            exact ⟨⟨x, by rw [encode, if_neg htag, hx]⟩, by rw [view, if_neg htag, hview]⟩
      | _ => simp [HasType] at h

/-- Of the plain types, the writer accepts nothing but values of that type. -/
theorem hasType_of_encode {t : FieldType} (ht : t.isPlain) {v : Value} {bs : Bytes}
    (h : encode t v = some bs) : HasType t v := by
  induction t generalizing v bs with
  | uint width =>
      cases v <;> simp only [encode, reduceCtorEq, Option.ite_none_right_eq_some] at h
      exact h.1
  | bool =>
      cases v <;> simp only [encode, reduceCtorEq] at h
      trivial
  | string =>
      cases v <;> simp only [encode, reduceCtorEq] at h
      obtain ⟨count, hcount, -⟩ := Option.map_eq_some_iff.mp h
      exact (Option.ite_none_right_eq_some.mp hcount).1
  | vec t ih =>
      cases v <;> simp only [encode, reduceCtorEq] at h
      obtain ⟨count, hcount, h⟩ := Option.bind_eq_some_iff.mp h
      obtain ⟨body, hbody, -⟩ := Option.bind_eq_some_iff.mp h
      refine ⟨(Option.ite_none_right_eq_some.mp hcount).1, fun v hv => ?_⟩
      obtain ⟨x, hx⟩ := exists_write_of_writeAll hbody v hv
      exact ih ht hx
  | fixedArray t size ih =>
      cases v <;> simp only [encode, reduceCtorEq, Option.ite_none_right_eq_some] at h
      refine ⟨h.1, fun v hv => ?_⟩
      obtain ⟨x, hx⟩ := exists_write_of_writeAll h.2 v hv
      exact ih ht hx
  | _ => simp [FieldType.isPlain] at ht

theorem encode_isSome_iff {t : FieldType} (ht : t.isPlain) (hwf : t.wellFormed) {v : Value} :
    (∃ bs, encode t v = some bs) ↔ HasType t v :=
  ⟨fun ⟨_, h⟩ => hasType_of_encode ht h, fun h => (encode_of_hasType hwf h).1⟩

theorem hasType_vec_strings_iff {names : List String} :
    HasType (.vec .string) (.array (names.map .str)) ↔
      names.length < 2 ^ 32 ∧ ∀ name ∈ names, (utf8 name).length < 2 ^ 32 := by
  simp [HasType]

/-- Four bytes for the vector, and for each string four more than it has itself. -/
theorem encode_vec_strings_length {names : List String} {bs : Bytes}
    (h : encode (.vec .string) (.array (names.map .str)) = some bs) :
    bs.length = 4 + (names.map fun name => 4 + (utf8 name).length).sum := by
  obtain ⟨count, hcount, h⟩ := Option.bind_eq_some_iff.mp h
  obtain ⟨body, hbody, h⟩ := Option.bind_eq_some_iff.mp h
  cases h
  rw [writeAll_map] at hbody
  rw [List.length_append, writeCount_length hcount,
    writeAll_length (fun _ _ => writeString_length) hbody]

/-- The declared members of an object, as the reader gives them back. -/
def declared (fields : Fields) (o : Object) : Object :=
  fields.map fun f => (f.1, view f.2 (Object.get o f.1))

/-- Every declared member is set to a value of its type. -/
def HasMembers (fields : Fields) (o : Object) : Prop := ∀ f ∈ fields, HasType f.2 (Object.get o f.1)

theorem get_declared_append {fields : Fields} (hnodup : (fields.map Prod.fst).Nodup) (o tail : Object)
    {f : String × FieldType} (hf : f ∈ fields) :
    Object.get (declared fields o ++ tail) f.1 = view f.2 (Object.get o f.1) := by
  induction fields with
  | nil => simp at hf
  | cons g fields ih =>
      rw [List.map_cons, List.nodup_cons] at hnodup
      rw [declared, List.map_cons, List.cons_append, Object.get_cons]
      rcases List.mem_cons.mp hf with rfl | hf
      · rw [if_pos rfl]
      · rw [if_neg, ← declared, ih hnodup.2 hf]
        exact fun h => hnodup.1 (h ▸ List.mem_map_of_mem hf)

theorem get_declared_append_of_not_mem {fields : Fields} (o tail : Object) {name : String}
    (h : name ∉ fields.map Prod.fst) :
    Object.get (declared fields o ++ tail) name = Object.get tail name := by
  induction fields with
  | nil => rfl
  | cons g fields ih =>
      rw [List.map_cons, List.mem_cons, not_or] at h
      rw [declared, List.map_cons, List.cons_append, Object.get_cons, if_neg h.1, ← declared, ih h.2]

theorem view_struct (fields : Fields) (o : Object) :
    view (struct fields) (.object o) = .object (declared fields o) := by
  induction fields with
  | nil => rfl
  | cons f fields ih => rw [struct_cons, view, ih]; rfl

theorem encode_struct_nil (o : Object) : encode (struct []) (.object o) = some [] := rfl

theorem encode_struct_cons (f : String × FieldType) (fields : Fields) (o : Object) :
    encode (struct (f :: fields)) (.object o) = do
      let x ← encode f.2 (Object.get o f.1)
      let xs ← encode (struct fields) (.object o)
      return x ++ xs := rfl

/-- A class is written exactly when each of its members is. -/
theorem encode_struct_isSome_iff {fields : Fields} {o : Object} :
    (∃ bs, encode (struct fields) (.object o) = some bs) ↔
      ∀ f ∈ fields, ∃ bs, encode f.2 (Object.get o f.1) = some bs := by
  induction fields with
  | nil => exact iff_of_true ⟨[], encode_struct_nil o⟩ (List.forall_mem_nil _)
  | cons f fields ih =>
      rw [List.forall_mem_cons, ← ih, encode_struct_cons]
      constructor
      · rintro ⟨bs, h⟩
        obtain ⟨x, hx, h⟩ := Option.bind_eq_some_iff.mp h
        obtain ⟨xs, hxs, -⟩ := Option.bind_eq_some_iff.mp h
        exact ⟨⟨x, hx⟩, ⟨xs, hxs⟩⟩
      · rintro ⟨⟨x, hx⟩, ⟨xs, hxs⟩⟩
        exact ⟨x ++ xs, by rw [hx, hxs]; rfl⟩

/-- A class does not see properties of other names. -/
theorem encode_struct_congr {fields : Fields} {o o' : Object}
    (h : ∀ f ∈ fields, Object.get o f.1 = Object.get o' f.1) :
    encode (struct fields) (.object o) = encode (struct fields) (.object o') := by
  induction fields with
  | nil => rfl
  | cons f fields ih =>
      rw [List.forall_mem_cons] at h
      rw [encode_struct_cons, encode_struct_cons, h.1, ih h.2]

/-- An object with all its members is written. -/
theorem encode_of_hasMembers {fields : Fields} (hwf : ∀ f ∈ fields, f.2.wellFormed) {o : Object}
    (h : HasMembers fields o) : ∃ bs, encode (struct fields) (.object o) = some bs :=
  encode_struct_isSome_iff.mpr fun f hf => (encode_of_hasType (hwf f hf) (h f hf)).1

/-- Members of their types are read back as they are. -/
theorem declared_of_hasMembers {fields : Fields} (hwf : ∀ f ∈ fields, f.2.wellFormed) {o : Object}
    (h : HasMembers fields o) : declared fields o = fields.map fun f => (f.1, Object.get o f.1) := by
  refine List.map_congr_left fun f hf => ?_
  rw [(encode_of_hasType (hwf f hf) (h f hf)).2]

/-- A class of plain members is written exactly when they have their types. -/
theorem encode_struct_isSome_iff_hasMembers {fields : Fields} (hplain : ∀ f ∈ fields, f.2.isPlain)
    (hwf : ∀ f ∈ fields, f.2.wellFormed) {o : Object} :
    (∃ bs, encode (struct fields) (.object o) = some bs) ↔ HasMembers fields o := by
  rw [encode_struct_isSome_iff]
  exact forall₂_congr fun f hf => encode_isSome_iff (hplain f hf) (hwf f hf)

theorem encode_struct_append (fields fields' : Fields) (o : Object) :
    encode (struct (fields ++ fields')) (.object o) = do
      let x ← encode (struct fields) (.object o)
      let y ← encode (struct fields') (.object o)
      return x ++ y := by
  induction fields with
  | nil =>
      rw [List.nil_append, encode_struct_nil]
      cases encode (struct fields') (.object o) <;> rfl
  | cons f fields ih =>
      simp only [List.cons_append, encode_struct_cons, ih, Option.bind_eq_bind, Option.pure_def,
        Option.bind_assoc, Option.bind_some, List.append_assoc]

/-- A class with a single member is written like that member. -/
theorem encode_struct_singleton (f : String × FieldType) (o : Object) :
    encode (struct [f]) (.object o) = encode f.2 (Object.get o f.1) := by
  rw [encode_struct_cons, encode_struct_nil]
  cases encode f.2 (Object.get o f.1) with
  | none => rfl
  | some bs => exact congrArg some (List.append_nil bs)

variable {reader : Reader}

theorem decode_struct_singleton (f : String × FieldType) (bs : Bytes) :
    decode reader (struct [f]) bs = (decode reader f.2 bs).map fun r => (.object [(f.1, r.1)], r.2) := by
  rw [struct_cons, struct_nil, decode]
  cases decode reader f.2 bs <;> rfl

/-- Put members in front of those already read. -/
def prependMembers (members : Object) : Value → Value
  | .object o => .object (members ++ o)
  | w => w

theorem consMember_prependMembers (name : String) (v : Value) (members : Object) (w : Value) :
    consMember name v (prependMembers members w) = prependMembers ((name, v) :: members) w := by
  cases w <;> rfl

/-- Reading a longer class over the bytes of its first members gives these members, and goes on with
the others behind them. -/
theorem decode_struct_append {fields : Fields} (hwf : (struct fields).wellFormed) (fields' : Fields)
    {o : Object} {bs : Bytes} (h : encode (struct fields) (.object o) = some bs) (rest : Bytes) :
    decode reader (struct (fields ++ fields')) (bs ++ rest) =
      (decode reader (struct fields') rest).map fun r => (prependMembers (declared fields o) r.1, r.2) := by
  induction fields generalizing bs with
  | nil =>
      cases h
      simp only [List.nil_append]
      cases decode reader (struct fields') rest with
      | none => rfl
      | some r => obtain ⟨w, bs⟩ := r; cases w <;> rfl
  | cons f fields ih =>
      simp only [struct_cons, FieldType.wellFormed, Bool.and_eq_true] at hwf
      obtain ⟨x, hx, h⟩ := Option.bind_eq_some_iff.mp h
      obtain ⟨xs, hxs, h⟩ := Option.bind_eq_some_iff.mp h
      cases h
      simp only [List.cons_append, struct_cons, decode, List.append_assoc,
        decode_encode hwf.1.1.1 hx, Option.bind_eq_bind, Option.bind_some, ih hwf.1.1.2 hxs]
      cases decode reader (struct fields') rest with
      | none => rfl
      | some r => exact congrArg some (Prod.ext (consMember_prependMembers ..) rfl)

/-- Reading a class gives an object, each of whose members was read by its own type. -/
theorem decode_struct_get {fields : Fields} (hnodup : (fields.map Prod.fst).Nodup) {bs rest : Bytes}
    {w : Value} (h : decode reader (struct fields) bs = some (w, rest)) :
    ∃ o, w = .object o ∧
      ∀ f ∈ fields, ∃ bs' rest', decode reader f.2 bs' = some (Object.get o f.1, rest') := by
  induction fields generalizing bs rest w with
  | nil =>
      cases h
      exact ⟨[], rfl, List.forall_mem_nil _⟩
  | cons g fields ih =>
      rw [List.map_cons, List.nodup_cons] at hnodup
      rw [struct_cons, decode] at h
      obtain ⟨⟨v, bs'⟩, hv, h⟩ := Option.bind_eq_some_iff.mp h
      obtain ⟨⟨w', rest'⟩, hw', h⟩ := Option.bind_eq_some_iff.mp h
      obtain ⟨o, rfl, hmembers⟩ := ih hnodup.2 hw'
      cases h
      refine ⟨(g.1, v) :: o, rfl, List.forall_mem_cons.mpr ⟨⟨bs, bs', ?_⟩, fun f hf => ?_⟩⟩
      · rw [Object.get_cons, if_pos rfl]
        exact hv
      · rw [Object.get_cons, if_neg]
        · exact hmembers f hf
        · exact fun heq => hnodup.1 (heq ▸ List.mem_map_of_mem hf)

/-! ### Whole buffers -/

/-- `deserialize`; `none` where it throws. -/
def deserialize (reader : Reader) (fields : Fields) (bs : Bytes) : Option Object :=
  match decode reader (struct fields) bs with
  | some (.object o, rest) => if rest = [] ∨ reader.allowTrailing = true then some o else none
  | _ => none

theorem deserialize_encode {fields : Fields} (hwf : (struct fields).wellFormed) {o : Object}
    {bs : Bytes} (h : encode (struct fields) (.object o) = some bs) (reader : Reader) :
    deserialize reader fields bs = some (declared fields o) := by
  have hread := @decode_encode reader _ hwf _ _ h []
  rw [List.append_nil, view_struct] at hread
  simp [deserialize, hread]

/-- A number that is read fits its width. -/
theorem get_of_deserialize {fields : Fields} (hnodup : (fields.map Prod.fst).Nodup) {bs : Bytes}
    {o : Object} (h : deserialize reader fields bs = some o) {name : String} {width : Nat}
    (hf : (name, .uint width) ∈ fields) : ∃ n : Nat, Object.get o name = .num n ∧ n < 256 ^ width := by
  rw [deserialize] at h
  split at h
  · rename_i read rest hread
    obtain ⟨o', hobject, hmembers⟩ := decode_struct_get hnodup hread
    cases hobject
    cases (Option.ite_none_right_eq_some.mp h).2
    obtain ⟨bs', rest', hmember⟩ := hmembers _ hf
    obtain ⟨⟨n, rest''⟩, hn, hget⟩ := Option.map_eq_some_iff.mp hmember
    exact ⟨n, (congrArg Prod.fst hget).symm, readNat_lt hn⟩
  · cases h

end Borsh
