import InglMonitor.BorshSchema

/-! Values that end by themselves. Where a value ends in a buffer is fixed by the tags and counts in it,
whatever a reader makes of flags and texts. So what stands behind a value does not matter to it, no
reader accepts less than another one has read, and of two classes that are told apart by the byte in
front nothing that is written continues anything else. -/

namespace Borsh

section Delimited

variable {α β γ δ : Type} {P : α → Prop} {Q : β → Prop} {R : α → γ → Prop} {S : β → δ → Prop}
  {read : Bytes → Option (α × Bytes)} {read' : Bytes → Option (γ × Bytes)}

/-- What is read has a property, and it was read from a front that it is always read from. -/
def Delimited (P : α → Prop) (read : Bytes → Option (α × Bytes)) : Prop :=
  ∀ bs v rest, read bs = some (v, rest) →
    P v ∧ ∃ front, bs = front ++ rest ∧ ∀ rest', read (front ++ rest') = some (v, rest')

/-- Of two readers, the second one stops where the first one does, also in a longer buffer. -/
def Together (R : α → γ → Prop) (read : Bytes → Option (α × Bytes)) (read' : Bytes → Option (γ × Bytes)) :
    Prop :=
  ∀ bs extra v rest v' rest', read bs = some (v, rest) → read' (bs ++ extra) = some (v', rest') →
    R v v' ∧ rest' = rest ++ extra

theorem Delimited.map (h : Delimited P read) {f : α → β} (hf : ∀ v, P v → Q (f v)) :
    Delimited Q fun bs => (read bs).map fun r => (f r.1, r.2) := by
  intro bs w rest hread
  obtain ⟨⟨v, left⟩, hv, heq⟩ := Option.map_eq_some_iff.mp hread
  obtain ⟨rfl, rfl⟩ := Prod.mk.inj heq
  obtain ⟨hP, front, hbs, hfront⟩ := h bs v left hv
  refine ⟨hf v hP, front, hbs, fun rest' => ?_⟩
  simp only [hfront, Option.map_some]

theorem Delimited.bind (h : Delimited P read) {next : α → Bytes → Option (β × Bytes)}
    (hnext : ∀ v, P v → Delimited Q (next v)) :
    Delimited Q fun bs => (read bs).bind fun r => next r.1 r.2 := by
  intro bs w rest hread
  obtain ⟨⟨v, middle⟩, hv, hw⟩ := Option.bind_eq_some_iff.mp hread
  obtain ⟨hP, front, rfl, hfront⟩ := h bs v middle hv
  obtain ⟨hQ, front', rfl, hfront'⟩ := hnext v hP middle w rest hw
  refine ⟨hQ, front ++ front', (List.append_assoc ..).symm, fun rest' => ?_⟩
  simp only [List.append_assoc, hfront, Option.bind_some, hfront']

theorem Delimited.pure (h : Delimited P read) {f : α → β} (hf : ∀ v, P v → Q (f v)) :
    Delimited Q fun bs => (read bs).bind fun r => some (f r.1, r.2) := by
  have hmap : (fun bs => (read bs).bind fun r => some (f r.1, r.2)) =
      fun bs => (read bs).map fun r => (f r.1, r.2) := by
    funext bs
    cases read bs <;> rfl
  rw [hmap]
  exact h.map hf

theorem Delimited.readAll (h : Delimited P read) (n : Nat) :
    Delimited (fun vs => vs.length = n ∧ ∀ v ∈ vs, P v) (readAll read n) := by
  induction n with
  | zero =>
      intro bs vs rest hread
      cases hread
      exact ⟨⟨rfl, List.forall_mem_nil _⟩, [], rfl, fun _ => rfl⟩
  | succ n ih =>
      exact h.bind fun v hv => ih.pure fun vs hvs =>
        ⟨congrArg Nat.succ hvs.1, List.forall_mem_cons.mpr ⟨hv, hvs.2⟩⟩

/-- A reader keeps up with itself. -/
theorem Delimited.together (h : Delimited P read) : Together Eq read read := by
  intro bs extra v rest v' rest' hread hread'
  obtain ⟨-, front, rfl, hfront⟩ := h bs v rest hread
  rw [List.append_assoc, hfront] at hread'
  obtain ⟨rfl, rfl⟩ := Prod.mk.inj (Option.some.inj hread')
  exact ⟨rfl, rfl⟩

theorem Together.map (h : Together R read read') {f : α → β} {g : γ → δ}
    (hfg : ∀ v v', R v v' → S (f v) (g v')) :
    Together S (fun bs => (read bs).map fun r => (f r.1, r.2))
      (fun bs => (read' bs).map fun r => (g r.1, r.2)) := by
  intro bs extra w rest w' rest' hread hread'
  obtain ⟨⟨v, left⟩, hv, heq⟩ := Option.map_eq_some_iff.mp hread
  obtain ⟨⟨v', left'⟩, hv', heq'⟩ := Option.map_eq_some_iff.mp hread'
  obtain ⟨rfl, rfl⟩ := Prod.mk.inj heq
  obtain ⟨rfl, rfl⟩ := Prod.mk.inj heq'
  exact (h bs extra v left v' left' hv hv').imp_left (hfg v v')

theorem Together.bind (h : Together R read read') {next : α → Bytes → Option (β × Bytes)}
    {next' : γ → Bytes → Option (δ × Bytes)} (hnext : ∀ v v', R v v' → Together S (next v) (next' v')) :
    Together S (fun bs => (read bs).bind fun r => next r.1 r.2)
      (fun bs => (read' bs).bind fun r => next' r.1 r.2) := by
  intro bs extra w rest w' rest' hread hread'
  obtain ⟨⟨v, middle⟩, hv, hw⟩ := Option.bind_eq_some_iff.mp hread
  obtain ⟨⟨v', middle'⟩, hv', hw'⟩ := Option.bind_eq_some_iff.mp hread'
  obtain ⟨hR, rfl⟩ := h bs extra v middle v' middle' hv hv'
  exact hnext v v' hR middle extra w rest w' rest' hw hw'

theorem Together.pure (h : Together R read read') {f : α → β} {g : γ → δ} :
    Together (fun _ _ => True) (fun bs => (read bs).bind fun r => some (f r.1, r.2))
      (fun bs => (read' bs).bind fun r => some (g r.1, r.2)) := by
  intro bs extra w rest w' rest' hread hread'
  obtain ⟨⟨v, left⟩, hv, heq⟩ := Option.bind_eq_some_iff.mp hread
  obtain ⟨⟨v', left'⟩, hv', heq'⟩ := Option.bind_eq_some_iff.mp hread'
  cases heq
  cases heq'
  exact ⟨trivial, (h bs extra v left v' left' hv hv').2⟩

theorem Together.readAll (h : Together R read read') {n n' : Nat} (hn : n = n') :
    Together (fun _ _ => True) (readAll read n) (readAll read' n') := by
  subst hn
  induction n with
  | zero =>
      intro bs extra vs rest vs' rest' hread hread'
      cases hread
      cases hread'
      exact ⟨trivial, rfl⟩
  | succ n ih => exact h.bind fun v v' _ => ih.pure

end Delimited

theorem takeBytes_eq_some_iff {n : Nat} {bs front rest : Bytes} :
    takeBytes n bs = some (front, rest) ↔ front.length = n ∧ bs = front ++ rest := by
  constructor
  · intro h
    obtain ⟨hle, h⟩ := Option.ite_none_right_eq_some.mp h
    cases h
    exact ⟨by rw [List.length_take, Nat.min_eq_left hle], (List.take_append_drop n bs).symm⟩
  · rintro ⟨rfl, rfl⟩
    exact takeBytes_append rfl rest

theorem delimited_takeBytes (n : Nat) : Delimited (fun bs => bs.length = n) (takeBytes n) := by
  intro bs front rest h
  obtain ⟨hlength, hbs⟩ := takeBytes_eq_some_iff.mp h
  exact ⟨hlength, front, hbs, takeBytes_append hlength⟩

theorem delimited_readNat (width : Nat) : Delimited (fun n => n < 256 ^ width) (readNat width) :=
  (delimited_takeBytes width).map fun bs hbs => hbs ▸ leNat_lt bs

variable {reader reader' : Reader}

/-- A text behind its length. -/
theorem delimited_text {n : Nat} (hn : n < 256 ^ 4) :
    Delimited (fun s => (utf8 s).length < 256 ^ 4) fun bs => (takeBytes n bs).bind fun r =>
      (reader.text r.1).bind fun s => some (s, r.2) := by
  intro bs s rest h
  obtain ⟨⟨x, left⟩, hx, h⟩ := Option.bind_eq_some_iff.mp h
  obtain ⟨s', hs, h⟩ := Option.bind_eq_some_iff.mp h
  obtain ⟨rfl, rfl⟩ := Prod.mk.inj (Option.some.inj h)
  obtain ⟨hlength, front, rfl, hfront⟩ := delimited_takeBytes n bs x left hx
  refine ⟨reader.text_length x s' hs (hlength ▸ hn), front, rfl, fun rest' => ?_⟩
  simp only [hfront, Option.bind_some, hs]

theorem delimited_readString :
    Delimited (fun s => (utf8 s).length < 256 ^ 4) (readString reader) :=
  (delimited_readNat 4).bind fun _ hn => delimited_text hn

theorem together_text {n n' : Nat} (hn : n = n') : Together (fun _ _ => True)
    (fun bs => (takeBytes n bs).bind fun r => (reader.text r.1).bind fun s => some (s, r.2))
    fun bs => (takeBytes n' bs).bind fun r => (reader'.text r.1).bind fun s => some (s, r.2) := by
  subst hn
  intro bs extra s rest s' rest' h h'
  obtain ⟨⟨x, left⟩, hx, h⟩ := Option.bind_eq_some_iff.mp h
  obtain ⟨⟨x', left'⟩, hx', h'⟩ := Option.bind_eq_some_iff.mp h'
  obtain ⟨_, -, h⟩ := Option.bind_eq_some_iff.mp h
  obtain ⟨_, -, h'⟩ := Option.bind_eq_some_iff.mp h'
  cases h
  cases h'
  exact ⟨trivial, ((delimited_takeBytes n).together bs extra x left x' left' hx hx').2⟩

theorem together_readString :
    Together (fun _ _ => True) (readString reader) (readString reader') :=
  (delimited_readNat 4).together.bind fun _ _ hn => together_text hn

namespace FieldType

/-- No map. -/
def isFlat : FieldType → Bool
  | .map .. => false
  | .option t | .vec t | .fixedArray t _ => t.isFlat
  | .member _ t rest | .variant _ t rest => t.isFlat && rest.isFlat
  | _ => true

end FieldType

theorem exists_object_of_hasType {t : FieldType} (ht : t.isMembers) {v : Value} (h : HasType t v) :
    ∃ o, v = .object o := by
  cases t with
  | noMembers =>
      cases v with
      | object o => exact ⟨o, rfl⟩
      | _ => simp [HasType] at h
  | member name t rest =>
      cases v with
      | object o => exact ⟨o, rfl⟩
      | _ => simp [HasType] at h
  | _ => cases ht

theorem exists_variant_of_hasType {t : FieldType} (ht : t.isVariants) {v : Value} (h : HasType t v) :
    ∃ tag w, v = .variant tag w := by
  cases t with
  | noVariants => simp [HasType] at h
  | variant tag t rest =>
      cases v with
      | variant tag' w => exact ⟨tag', w, rfl⟩
      | _ => simp [HasType] at h
  | _ => cases ht

theorem decode_nil_of_isVariants {t : FieldType} (ht : t.isVariants) : decode reader t [] = none := by
  cases t with
  | noVariants => rfl
  | variant tag t tail => rfl
  | _ => cases ht

/-- An instance under a hierarchy was read behind its variant byte. -/
theorem eq_tag_of_decode {t : FieldType} (ht : t.isVariants) (hwf : t.wellFormed) {b tag : UInt8}
    {v : Value} {bs rest : Bytes} (h : decode reader t (b :: bs) = some (.variant tag v, rest)) :
    b = tag := by
  induction t with
  | noVariants => cases h
  | variant tag' t tail _ ih =>
      simp only [FieldType.wellFormed, Bool.and_eq_true] at hwf
      rw [decode] at h
      split at h
      · rename_i hb
        obtain ⟨r, -, h⟩ := Option.map_eq_some_iff.mp h
        cases h
        exact hb
      · exact ih hwf.2 hwf.1.2 h
  | _ => cases ht

/-- **Delimited values.** What is read has its type, and it was read from a front of the buffer that it is
read from whatever stands behind. -/
theorem delimited_decode {t : FieldType} (hwf : t.wellFormed) (ht : t.isFlat) :
    Delimited (HasType t) (decode reader t) := by
  induction t with
  | uint width =>
      refine (delimited_readNat width).map (f := fun n => Value.num n) fun n hn => ?_
      exact ⟨Int.natCast_nonneg n, by simpa using Int.ofNat_lt.mpr hn⟩
  | bool =>
      intro bs v rest h
      cases bs with
      | nil => cases h
      | cons b bs =>
          rw [decode] at h
          obtain ⟨flag, hflag, h⟩ := Option.map_eq_some_iff.mp h
          cases h
          exact ⟨trivial, [b], rfl, fun rest' => by rw [List.singleton_append, decode, hflag]; rfl⟩
  | string => exact delimited_readString.map (f := Value.str) fun s hs => hs
  | option t ih =>
      intro bs v rest h
      cases bs with
      | nil => cases h
      | cons b bs =>
          rw [decode] at h
          by_cases hb : b = 0
          · rw [if_pos hb] at h
            cases h
            exact ⟨.inl rfl, [b], rfl, fun rest' => by rw [List.singleton_append, decode, if_pos hb]⟩
          · rw [if_neg hb] at h
            obtain ⟨htype, front, rfl, hfront⟩ := ih hwf ht bs v rest h
            refine ⟨.inr htype, b :: front, rfl, fun rest' => ?_⟩
            rw [List.cons_append, decode, if_neg hb, hfront]
  | vec t ih =>
      refine (delimited_readNat 4).bind fun n hn =>
        ((ih hwf ht).readAll n).pure (f := Value.array) fun vs hvs => ?_
      exact ⟨hvs.1 ▸ hn, hvs.2⟩
  | fixedArray t size ih => exact ((ih hwf ht).readAll size).map (f := Value.array) fun vs hvs => hvs
  | map key value => cases ht
  | noMembers =>
      intro bs v rest h
      cases h
      exact ⟨rfl, [], rfl, fun _ => rfl⟩
  | member name t tail iht ihtail =>
      simp only [FieldType.wellFormed, Bool.and_eq_true] at hwf
      simp only [FieldType.isFlat, Bool.and_eq_true] at ht
      refine (iht hwf.1.1.1 ht.1).bind fun x hx => (ihtail hwf.1.1.2 ht.2).pure
        (f := consMember name x) fun w hw => ?_
      obtain ⟨o, rfl⟩ := exists_object_of_hasType hwf.1.2 hw
      exact ⟨rfl, hx, hw⟩
  | noVariants =>
      intro bs v rest h
      cases h
  | variant tag t tail iht ihtail =>
      simp only [FieldType.wellFormed, Bool.and_eq_true] at hwf
      simp only [FieldType.isFlat, Bool.and_eq_true] at ht
      intro bs v rest h
      cases bs with
      | nil => cases h
      | cons b bs =>
          by_cases hb : b = tag
          · rw [decode, if_pos hb] at h
            obtain ⟨⟨w, left⟩, hw, h⟩ := Option.map_eq_some_iff.mp h
            obtain ⟨rfl, rfl⟩ := Prod.mk.inj h
            obtain ⟨htype, front, rfl, hfront⟩ := iht hwf.1.1 ht.1 bs w left hw
            refine ⟨by rw [HasType, if_pos rfl]; exact htype, b :: front, rfl, fun rest' => ?_⟩
            rw [List.cons_append, decode, if_pos hb, hfront, Option.map_some]
          · rw [decode, if_neg hb] at h
            obtain ⟨htype, front, hbs, hfront⟩ := ihtail hwf.1.2 ht.2 (b :: bs) v rest h
            obtain ⟨tag', w, rfl⟩ := exists_variant_of_hasType hwf.2 htype
            have htag : b = tag' := eq_tag_of_decode hwf.2 hwf.1.2 h
            refine ⟨by rw [HasType, if_neg fun heq => hb (htag.trans heq)]; exact htype, front, hbs,
              fun rest' => ?_⟩
            have hrest := hfront rest'
            cases front with
            | nil =>
                -- no class of a hierarchy is read from an empty buffer
                cases (decode_nil_of_isVariants hwf.2).symm.trans (hfront [])
            | cons b' front =>
                cases hbs
                rw [List.cons_append] at hrest ⊢
                rw [decode, if_neg hb, hrest]

/-- **Readers keep together.** Whatever two readers make of flags and texts, they stop at the same place. -/
theorem together_decode {t : FieldType} (ht : t.isFlat) :
    Together (fun _ _ => True) (decode reader t) (decode reader' t) := by
  induction t with
  | uint width =>
      exact (delimited_readNat width).together.map (f := fun n => Value.num n) (g := fun n => Value.num n)
        fun _ _ _ => trivial
  | bool =>
      intro bs extra v rest v' rest' h h'
      cases bs with
      | nil => cases h
      | cons b bs =>
          rw [decode] at h
          rw [List.cons_append, decode] at h'
          obtain ⟨flag, -, h⟩ := Option.map_eq_some_iff.mp h
          obtain ⟨flag', -, h'⟩ := Option.map_eq_some_iff.mp h'
          cases h
          cases h'
          exact ⟨trivial, rfl⟩
  | string => exact together_readString.map (f := Value.str) (g := Value.str) fun _ _ h => h
  | option t ih =>
      intro bs extra v rest v' rest' h h'
      cases bs with
      | nil => cases h
      | cons b bs =>
          rw [decode] at h
          rw [List.cons_append, decode] at h'
          by_cases hb : b = 0
          · rw [if_pos hb] at h h'
            cases h
            cases h'
            exact ⟨trivial, rfl⟩
          · rw [if_neg hb] at h h'
            exact ih ht bs extra v rest v' rest' h h'
  | vec t ih => exact (delimited_readNat 4).together.bind fun _ _ hn => ((ih ht).readAll hn).pure
  | fixedArray t size ih =>
      exact ((ih ht).readAll rfl).map (f := Value.array) (g := Value.array) fun _ _ h => h
  | map key value => cases ht
  | noMembers =>
      intro bs extra v rest v' rest' h h'
      cases h
      cases h'
      exact ⟨trivial, rfl⟩
  | member name t tail iht ihtail =>
      simp only [FieldType.isFlat, Bool.and_eq_true] at ht
      exact (iht ht.1).bind fun _ _ _ => (ihtail ht.2).pure
  | noVariants =>
      intro bs extra v rest v' rest' h
      cases h
  | variant tag t tail iht ihtail =>
      simp only [FieldType.isFlat, Bool.and_eq_true] at ht
      intro bs extra v rest v' rest' h h'
      cases bs with
      | nil => cases h
      | cons b bs =>
          rw [decode] at h
          rw [List.cons_append, decode] at h'
          by_cases hb : b = tag
          · rw [if_pos hb] at h h'
            obtain ⟨⟨w, left⟩, hw, h⟩ := Option.map_eq_some_iff.mp h
            obtain ⟨⟨w', left'⟩, hw', h'⟩ := Option.map_eq_some_iff.mp h'
            obtain ⟨-, rfl⟩ := Prod.mk.inj h
            obtain ⟨-, rfl⟩ := Prod.mk.inj h'
            exact iht ht.1 bs extra w left w' left' hw hw'
          · rw [if_neg hb] at h h'
            exact ihtail ht.2 (b :: bs) extra v rest v' rest' h h'

theorem deserialize_eq_some_iff {fields : Fields} {bs : Bytes} {o : Object} :
    deserialize reader fields bs = some o ↔
      ∃ rest, decode reader (struct fields) bs = some (.object o, rest) ∧
        (rest = [] ∨ reader.allowTrailing = true) := by
  rw [deserialize]
  constructor
  · intro h
    split at h
    · rename_i read rest hread
      obtain ⟨hrest, h⟩ := Option.ite_none_right_eq_some.mp h
      cases h
      exact ⟨rest, hread, hrest⟩
    · cases h
  · rintro ⟨rest, hread, hrest⟩
    rw [hread]
    exact if_pos hrest

/-- A buffer from which a class is read has a front that the object is read from, whatever follows as far as
something may follow. From less than that front nobody reads an object. -/
theorem deserialize_delimited {fields : Fields} (hwf : (struct fields).wellFormed)
    (ht : (struct fields).isFlat) {bs : Bytes} {o : Object} (h : deserialize reader fields bs = some o) :
    HasType (struct fields) (.object o) ∧ ∃ front rest,
      bs = front ++ rest ∧ (rest = [] ∨ reader.allowTrailing = true) ∧
      (∀ rest', deserialize reader fields (front ++ rest') =
        if rest' = [] ∨ reader.allowTrailing = true then some o else none) ∧
      ∀ reader' less extra, front = less ++ extra → extra ≠ [] → deserialize reader' fields less = none := by
  obtain ⟨rest, hread, hrest⟩ := deserialize_eq_some_iff.mp h
  obtain ⟨htype, front, hbs, hfront⟩ := delimited_decode hwf ht bs _ rest hread
  refine ⟨htype, front, rest, hbs, hrest, fun rest' => ?_, fun reader' less extra hless hextra => ?_⟩
  · rw [deserialize, hfront]
  · cases hshort : deserialize reader' fields less with
    | none => rfl
    | some o' =>
        obtain ⟨left, hread', -⟩ := deserialize_eq_some_iff.mp hshort
        have hwhole := hfront []
        rw [List.append_nil, hless] at hwhole
        have hend := (together_decode ht less extra _ left _ [] hread' hwhole).2
        exact absurd (List.append_eq_nil_iff.mp hend.symm).2 hextra

/-- Classes whose first member is the byte that tells them apart. -/
structure TaggedFormat (Class : Type) where
  tagName : String
  tag : Class → UInt8
  fields : Class → Fields
  tag_inj : ∀ {c c'}, tag c = tag c' → c = c'
  leading : ∀ c, ∃ rest, fields c = (tagName, .u8) :: rest
  wellFormed : ∀ c, (struct (fields c)).wellFormed

/-- A byte is written as itself. -/
theorem encode_u8_eq_some_iff {v : Value} {bs : Bytes} :
    encode .u8 v = some bs ↔ ∃ b : UInt8, v = .num b.toNat ∧ bs = [b] := by
  constructor
  · intro h
    cases v with
    | num n =>
        obtain ⟨⟨hn, hlt⟩, h⟩ := Option.ite_none_right_eq_some.mp h
        cases h
        refine ⟨UInt8.ofNat n.toNat, ?_, rfl⟩
        rw [UInt8.toNat_ofNat']
        congr
        omega
    | _ => cases h
  · rintro ⟨b, rfl, rfl⟩
    have hlt := b.toNat_lt
    rw [encode, if_pos ⟨Int.natCast_nonneg _, by omega⟩, Int.toNat_natCast]
    exact congrArg (fun b => some [b]) UInt8.ofNat_toNat

namespace TaggedFormat

variable {Class : Type} {format : TaggedFormat Class} {c c' : Class} {o o' : Object} {bs extra : Bytes}

/-- What is written of an object begins with its tag. -/
theorem encode_eq_cons (htag : o.get format.tagName = .num (format.tag c).toNat)
    (h : encode (struct (format.fields c)) (.object o) = some bs) : ∃ rest, bs = format.tag c :: rest := by
  obtain ⟨fields, hfields⟩ := format.leading c
  rw [hfields, encode_struct_cons, htag] at h
  obtain ⟨front, hfront, h⟩ := Option.bind_eq_some_iff.mp h
  obtain ⟨back, -, h⟩ := Option.bind_eq_some_iff.mp h
  obtain ⟨b, hb, rfl⟩ := encode_u8_eq_some_iff.mp hfront
  cases h
  have htagged : format.tag c = b := UInt8.toNat_inj.mp (by exact_mod_cast Value.num.inj hb)
  exact ⟨back, congrArg (· :: back) htagged.symm⟩

/-- **No prefixes.** Of two objects that carry their tags, what is written of the one continues what is
written of the other only if it is the same buffer, and the same class. -/
theorem eq_of_encode_append (htag : o.get format.tagName = .num (format.tag c).toNat)
    (htag' : o'.get format.tagName = .num (format.tag c').toNat)
    (h : encode (struct (format.fields c)) (.object o) = some bs)
    (h' : encode (struct (format.fields c')) (.object o') = some (bs ++ extra)) : c = c' ∧ extra = [] := by
  obtain ⟨rest, hbs⟩ := encode_eq_cons htag h
  obtain ⟨rest', hbs'⟩ := encode_eq_cons htag' h'
  have hsame : c = c' := by
    rw [hbs, List.cons_append] at hbs'
    exact format.tag_inj (List.cons.inj hbs').1
  subst hsame
  have hread := @decode_encode (.plain true) _ (format.wellFormed c) _ _ h extra
  have hread' := @decode_encode (.plain true) _ (format.wellFormed c) _ _ h' []
  rw [List.append_nil] at hread'
  exact ⟨rfl, (Prod.mk.inj (Option.some.inj (hread.symm.trans hread'))).2⟩

end TaggedFormat

end Borsh
