import InglMonitor.StateInstruction

/-! The instruction format loses nothing, for every class but one. `InjectTestingData` is declared
with the parameter type of another class, so its member `num_mints` is set only when the caller
happens to pass it. -/

open Borsh Borsh.FieldType

namespace InglMonitor.InstructionClass

/-- An argument of the declared parameter type: a value of its type under every parameter, and no
property `instruction`. -/
structure Declared (c : InstructionClass) (args : Object) : Prop where
  noTag : "instruction" ∉ args.map Prod.fst
  params : HasMembers c.params args

/-- `serialize(new C(args))`. -/
def serialize (c : InstructionClass) (args : Object) : Option Bytes :=
  encode (struct c.fields) (.object (c.new args))

/-- The first byte selects the class, whose layout then reads the buffer. -/
def decodeInstruction (reader : Reader) : Bytes → Option (InstructionClass × Object)
  | [] => none
  | b :: bs => do
      let c ← ofTag b
      let o ← deserialize reader c.fields (b :: bs)
      return (c, o)

/-- The members of the constructed object in wire order. -/
def members (c : InstructionClass) (args : Object) : Object :=
  c.fields.map fun f => (f.1, (c.new args).get f.1)

/-- Every member is set to the argument of its name, and every reader gets class and members back. -/
structure Lossless (c : InstructionClass) (args : Object) : Prop where
  set : ∀ f ∈ c.fields, f.1 ≠ "instruction" →
    (c.new args).get f.1 = args.get f.1 ∧ HasType f.2 ((c.new args).get f.1)
  decodes : ∃ bs, c.serialize args = some bs ∧
    ∀ reader, decodeInstruction reader bs = some (c, c.members args)

variable {c : InstructionClass} {args : Object}

theorem hasType_tag (c : InstructionClass) : HasType u8 (.num c.tag.toNat) := by
  have := c.tag.toNat_lt
  exact ⟨Int.natCast_nonneg _, by omega⟩

theorem encode_tag (c : InstructionClass) : encode u8 (.num c.tag.toNat) = some [c.tag] := by
  cases c <;> decide

theorem member_wellFormed : ∀ f ∈ c.fields, f.2.wellFormed := by
  cases c <;> decide

/-- The members have their declared types as soon as `num_mints` does. -/
theorem hasMembers_new (h : c.Declared args)
    (hmints : c = injectTestingData → HasType u8 (args.get "num_mints")) :
    HasMembers c.fields (c.new args) := by
  intro f hf
  obtain ⟨htag, hset⟩ := get_new c h.noTag
  by_cases hne : f.1 = "instruction"
  · have hu8 : f.2 = u8 := by
      have hall : ∀ f ∈ c.fields, f.1 = "instruction" → f.2 = u8 := by cases c <;> decide
      exact hall f hf hne
    rw [hne, htag, hu8]
    exact hasType_tag c
  · rw [hset f hf hne]
    by_cases hinject : c = injectTestingData ∧ f.1 = "num_mints"
    · obtain ⟨rfl, hname⟩ := hinject
      have hu8 : f.2 = u8 := by
        have hall : ∀ f ∈ InjectTestingData.fields, f.1 = "num_mints" → f.2 = u8 := by decide
        exact hall f hf hname
      rw [hname, hu8]
      exact hmints rfl
    · exact h.params f (mem_params_of_mem_fields hf hne fun hc hname => hinject ⟨hc, hname⟩)

theorem exists_serialize (h : c.Declared args)
    (hmints : c = injectTestingData → HasType u8 (args.get "num_mints")) :
    ∃ bs, c.serialize args = some bs :=
  encode_of_hasMembers member_wellFormed (hasMembers_new h hmints)

/-- What is serialized reads back as the class and its members. -/
theorem decodeInstruction_serialize (h : c.Declared args)
    (hmints : c = injectTestingData → HasType u8 (args.get "num_mints")) {bs : Bytes}
    (hbs : c.serialize args = some bs) (reader : Reader) :
    decodeInstruction reader bs = some (c, c.members args) := by
  obtain ⟨rest, hfields⟩ := fields_eq_cons c
  obtain ⟨xs, rfl⟩ : ∃ xs, bs = c.tag :: xs := by
    rw [serialize, hfields, encode_struct_cons, (get_new c h.noTag).1] at hbs
    obtain ⟨x, hx, hbs⟩ := Option.bind_eq_some_iff.mp hbs
    obtain ⟨xs, -, hbs⟩ := Option.bind_eq_some_iff.mp hbs
    cases Option.some.inj (hx.symm.trans c.encode_tag)
    cases hbs
    exact ⟨xs, rfl⟩
  have hdeclared : declared c.fields (c.new args) = c.members args :=
    declared_of_hasMembers member_wellFormed (hasMembers_new h hmints)
  have hread := deserialize_encode (fields_wellFormed c) hbs reader
  simp only [decodeInstruction, ofTag_tag, hread, hdeclared, Option.bind_eq_bind, Option.bind_some,
    Option.pure_def]

/-- Serialization itself checks `num_mints`. -/
theorem hasType_num_mints_of_serialize (h : c.Declared args) {bs : Bytes}
    (hbs : c.serialize args = some bs) :
    c = injectTestingData → HasType u8 (args.get "num_mints") := by
  rintro rfl
  have hmem : ("num_mints", u8) ∈ injectTestingData.fields := by decide
  obtain ⟨x, hx⟩ := encode_struct_isSome_iff.mp ⟨bs, hbs⟩ _ hmem
  rw [← (get_new injectTestingData h.noTag).2 _ hmem (by decide)]
  exact hasType_of_encode rfl hx

/-- The instruction format is lossless exactly where `InjectTestingData` is given a `num_mints` its
parameter type does not have; and equal bytes come from equal instructions. -/
theorem lossless_iff_num_mints (h : c.Declared args) :
    (c.Lossless args ↔ (c = injectTestingData → HasType u8 (args.get "num_mints"))) ∧
    ∀ (c' : InstructionClass) (args' : Object) (bs : Bytes), c'.Declared args' →
      c.serialize args = some bs → c'.serialize args' = some bs →
      c = c' ∧ c.members args = c'.members args' := by
  refine ⟨⟨?_, fun hmints => ⟨?_, ?_⟩⟩, fun c' args' bs h' hbs hbs' => ?_⟩
  · intro ⟨_, bs, hbs, _⟩
    exact hasType_num_mints_of_serialize h hbs
  · exact fun f hf hne => ⟨(get_new c h.noTag).2 f hf hne, hasMembers_new h hmints f hf⟩
  · obtain ⟨bs, hbs⟩ := exists_serialize h hmints
    exact ⟨bs, hbs, decodeInstruction_serialize h hmints hbs⟩
  · have hread := decodeInstruction_serialize h (hasType_num_mints_of_serialize h hbs) hbs
      (.plain false)
    have hread' := decodeInstruction_serialize h' (hasType_num_mints_of_serialize h' hbs') hbs'
      (.plain false)
    exact Prod.mk.inj (Option.some.inj (hread.symm.trans hread'))

/-- An argument of `UploadUris`, and one of `InjectTestingData` as it is declared. -/
def uploadArgs : Object :=
  [("uris", .array [.str "https://arweave.net/0"]), ("rarity", .num 3), ("log_level", .num 0)]

def injectArgs : Object := [("numeration", .num 7), ("log_level", .num 0)]

theorem declared_uploadArgs : uploadUris.Declared uploadArgs where
  noTag := by decide
  params := by
    simp [HasMembers, params, omitInstruction, UploadUris.fields, uploadArgs, HasType]
    decide

theorem declared_injectArgs : injectTestingData.Declared injectArgs where
  noTag := by decide
  params := by
    simp [HasMembers, params, omitInstruction, ExecuteGovernance.fields, injectArgs, HasType]

theorem not_lossless_injectArgs :
    injectTestingData.Declared injectArgs ∧ ¬injectTestingData.Lossless injectArgs := by
  refine ⟨declared_injectArgs, ?_⟩
  rintro ⟨hset, -⟩
  exact (hset ("num_mints", u8) (by decide) (by decide)).2

/-- The same arguments of `VoteGovernance` in two property orders. -/
def voteArgs : Object :=
  [("numeration", .num 7), ("vote", .bool true), ("cnt", .num 2), ("log_level", .num 0)]

def voteArgsReordered : Object :=
  [("cnt", .num 2), ("log_level", .num 0), ("vote", .bool true), ("numeration", .num 7)]

theorem declared_voteArgs : voteGovernance.Declared voteArgs where
  noTag := by decide
  params := by
    simp [HasMembers, params, omitInstruction, VoteGovernance.fields, voteArgs, HasType]

theorem declared_voteArgsReordered : voteGovernance.Declared voteArgsReordered where
  noTag := by decide
  params := by
    simp [HasMembers, params, omitInstruction, VoteGovernance.fields, voteArgsReordered, HasType]

theorem lossless_iff_num_mints_upload :
    uploadUris.Lossless uploadArgs ∧ ¬injectTestingData.Lossless injectArgs ∧
      voteGovernance.members voteArgs = voteGovernance.members voteArgsReordered := by
  refine ⟨(lossless_iff_num_mints declared_uploadArgs).1.mpr nofun, fun h => ?_, ?_⟩
  · exact ((lossless_iff_num_mints declared_injectArgs).1.mp h rfl).elim
  · exact ((lossless_iff_num_mints declared_voteArgs).2 voteGovernance voteArgsReordered
      [14, 7, 0, 0, 0, 1, 2, 0] declared_voteArgsReordered (by decide) (by decide)).2

end InglMonitor.InstructionClass
