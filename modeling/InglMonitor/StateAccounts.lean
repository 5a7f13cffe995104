import InglMonitor.StateGovType

/-! The stored accounts that hold votes. The chain writes a vote map as a count and its entries. The
class `Vote` extends `Map` and declares no member, so a schema with a `Vote` field reads no byte for
it: the map's bytes are left to the next member, or to the end of the buffer. -/

open Borsh Borsh.FieldType

namespace InglMonitor

/-- The declared class: no member. -/
def Vote : FieldType := struct []

/-- The bytes of a vote map on chain. -/
def storedVotes : FieldType := .map u32 bool

def Delegated : FieldType := struct []

def Undelegated : FieldType := struct []

def FundsLocation : FieldType := variants [(0, Delegated), (1, Undelegated)]

namespace GovernanceData

/-- The members in front of the votes. -/
def leadingFields : Fields := [
  ("validation_phrase", u32),
  ("expiration_time", u32),
  ("is_still_ongoing", bool),
  ("date_finalized", option u32),
  ("did_proposal_pass", option bool),
  ("is_proposal_executed", bool),
  ("title", string),
  ("description", string)]

def fields : Fields := leadingFields ++ [("votes", Vote), ("governance_type", GovernanceType)]

def stored : Fields := leadingFields ++ [("votes", storedVotes), ("governance_type", GovernanceType)]

end GovernanceData

namespace NftData

/-- The members in front of the votes. -/
def leadingFields : Fields := [
  ("validation_phrase", u32),
  ("rarity", option u8),
  ("rarity_seed_time", option u32),
  ("funds_location", FundsLocation),
  ("numeration", u32),
  ("date_created", u32),
  ("last_withdrawal_epoch", option u64),
  ("last_delegation_epoch", option u64),
  ("all_withdraws", vec u64)]

def fields : Fields := leadingFields ++ [("all_votes", Vote)]

def stored : Fields := leadingFields ++ [("all_votes", storedVotes)]

end NftData

/-! ### Reading back -/

/-- A value read for a member is the stored one. A `Vote` read without entries counts as the empty
map. -/
def SameMember (read stored : Value) : Prop :=
  read = stored ∨ read = .object [] ∧ stored = .map []

/-- Decoding the stored bytes with the declared schema gives back every member. -/
def DecodesBack (reader : Reader) (fields stored : Fields) (o : Object) : Prop :=
  ∃ bs o', encode (struct stored) (.object o) = some bs ∧
    deserialize reader fields bs = some o' ∧
    ∀ f ∈ fields, SameMember (o'.get f.1) (o.get f.1)

theorem storedVotes_wellFormed : storedVotes.wellFormed := by decide

theorem encode_storedVotes_nil : encode storedVotes (.map []) = some [0, 0, 0, 0] := by decide

/-- The shifted read loses every entry: a vote map that comes back was empty. -/
theorem votes_eq_nil_of_sameMember {v : Value} (hv : HasType storedVotes v)
    (h : SameMember (.object []) v) : v = .map [] := by
  cases v with
  | map entries =>
      rcases h with h | h
      · cases h
      · exact h.2
  | _ => exact hv.elim

section Shifted

variable {leading rest : Fields} {name : String} {o : Object}

/-- What the declared schema makes of the stored bytes: the leading members, an empty `Vote`, and the
remaining members read from the bytes of the vote map on. -/
theorem deserialize_shifted_iff (hwf : (struct leading).wellFormed) {bs : Bytes}
    (hbs : encode (struct leading) (.object o) = some bs) (votes tail : Bytes) (reader : Reader)
    {read : Object} :
    deserialize reader (leading ++ (name, Vote) :: rest) (bs ++ (votes ++ tail)) = some read ↔
      ∃ o' left, decode reader (struct rest) (votes ++ tail) = some (.object o', left) ∧
        (left = [] ∨ reader.allowTrailing = true) ∧
          read = declared leading o ++ (name, .object []) :: o' := by
  have hvote : decode reader (struct ((name, Vote) :: rest)) (votes ++ tail) =
      (decode reader (struct rest) (votes ++ tail)).map fun r =>
        (consMember name (.object []) r.1, r.2) := by
    simp only [struct_cons, decode, Vote, struct_nil, Option.bind_eq_bind, Option.bind_some]
    cases decode reader (struct rest) (votes ++ tail) <;> rfl
  rw [deserialize, decode_struct_append hwf _ hbs, hvote]
  cases decode reader (struct rest) (votes ++ tail) with
  | none => simp
  | some r =>
      obtain ⟨w, left⟩ := r
      cases w with
      | object o' =>
          simp only [Option.map_some, consMember, prependMembers, Option.ite_none_right_eq_some]
          constructor
          · rintro ⟨hleft, hread⟩
            exact ⟨o', left, rfl, hleft, (Option.some.inj hread).symm⟩
          · rintro ⟨o'', left', hsame, hleft, hread⟩
            cases hsame
            exact ⟨hleft, congrArg some hread.symm⟩
      | _ => simp [consMember, prependMembers]

/-- **Shifted members.** An account comes back exactly when its vote map is empty and the members behind
it survive being read from the four zero bytes of the count on. -/
theorem decodesBack_shifted_iff (hwf : (struct leading).wellFormed)
    (hrest : ∀ f ∈ (name, Vote) :: rest, f.1 ∉ leading.map Prod.fst)
    (hname : name ∉ rest.map Prod.fst) (hleading : ∀ f ∈ leading, f.2.wellFormed)
    (hnodup : (leading.map Prod.fst).Nodup) (ho : HasMembers leading o)
    (hvotes : HasType storedVotes (o.get name)) (reader : Reader) :
    DecodesBack reader (leading ++ (name, Vote) :: rest) (leading ++ (name, storedVotes) :: rest)
        o ↔
      o.get name = .map [] ∧ ∃ (tail : Bytes) (o' : Object) (left : Bytes),
        encode (struct rest) (.object o) = some tail ∧
        decode reader (struct rest) ([0, 0, 0, 0] ++ tail) = some (.object o', left) ∧
        (left = [] ∨ reader.allowTrailing = true) ∧ ∀ f ∈ rest, SameMember (o'.get f.1) (o.get f.1) := by
  obtain ⟨bs, hbs⟩ := encode_of_hasMembers hleading ho
  obtain ⟨⟨votes, hv⟩, -⟩ := encode_of_hasType storedVotes_wellFormed hvotes
  have hstored : encode (struct (leading ++ (name, storedVotes) :: rest)) (.object o) =
      (encode (struct rest) (.object o)).map fun tail => bs ++ (votes ++ tail) := by
    rw [encode_struct_append, hbs, encode_struct_cons, hv]
    cases encode (struct rest) (.object o) <;> rfl
  have hget (o' : Object) {f : String × FieldType} (hf : f ∈ (name, Vote) :: rest) :
      Object.get (declared leading o ++ (name, .object []) :: o') f.1 =
        Object.get ((name, .object []) :: o') f.1 :=
    get_declared_append_of_not_mem _ _ (hrest f hf)
  have hbehind {f : String × FieldType} (hf : f ∈ rest) : f.1 ≠ name := fun h =>
    hname (h ▸ List.mem_map_of_mem hf)
  constructor
  · rintro ⟨_, _, henc, hdecode, hsame⟩
    rw [hstored] at henc
    obtain ⟨tail, htail, rfl⟩ := Option.map_eq_some_iff.mp henc
    obtain ⟨o', left, hread, hleft, rfl⟩ :=
      (deserialize_shifted_iff hwf hbs votes tail reader).mp hdecode
    have hempty := hsame (name, Vote) (List.mem_append_right _ List.mem_cons_self)
    rw [hget o' List.mem_cons_self, Object.get_cons, if_pos rfl] at hempty
    have hnil := votes_eq_nil_of_sameMember hvotes hempty
    rw [hnil, encode_storedVotes_nil] at hv
    cases hv
    refine ⟨hnil, tail, o', left, htail, hread, hleft, fun f hf => ?_⟩
    have hmember := hsame f (List.mem_append_right _ (List.mem_cons_of_mem _ hf))
    rwa [hget o' (List.mem_cons_of_mem _ hf), Object.get_cons, if_neg (hbehind hf)] at hmember
  · rintro ⟨hnil, tail, o', left, htail, hread, hleft, hsame⟩
    rw [hnil, encode_storedVotes_nil] at hv
    cases hv
    refine ⟨_, _, by rw [hstored, htail, Option.map_some],
      (deserialize_shifted_iff hwf hbs _ tail reader).mpr ⟨o', left, hread, hleft, rfl⟩,
      fun f hf => ?_⟩
    rcases List.mem_append.mp hf with hf | hf
    · rw [get_declared_append hnodup o _ hf]
      exact .inl (encode_of_hasType (hleading f hf) (ho f hf)).2
    · rw [hget o' hf, Object.get_cons]
      rcases List.mem_cons.mp hf with rfl | hf
      · rw [if_pos rfl, hnil]
        exact .inr ⟨rfl, rfl⟩
      · rw [if_neg (hbehind hf)]
        exact hsame f hf

end Shifted

namespace NftData

theorem decodesBack_iff (reader : Reader) {o : Object} (ho : HasMembers stored o) :
    DecodesBack reader fields stored o ↔
      reader.allowTrailing = true ∧ o.get "all_votes" = .map [] := by
  have hleading : HasMembers leadingFields o := fun f hf => ho f (List.mem_append_left _ hf)
  rw [fields, stored, decodesBack_shifted_iff (by decide) (by decide) (by decide) (by decide)
    (by decide) hleading (ho ("all_votes", storedVotes) (by decide))]
  constructor
  · intro ⟨hnil, tail, o', left, htail, hread, hleft, _⟩
    cases htail
    cases hread
    exact ⟨hleft.resolve_left (by decide), hnil⟩
  · intro ⟨htrailing, hnil⟩
    exact ⟨hnil, [], [], [0, 0, 0, 0], rfl, rfl, .inr htrailing, nofun⟩

end NftData

namespace GovernanceData

/-- Over the four zero bytes of an empty vote map the governance type reads as a `MaxPrimaryStake`,
whose value starts with the next two bytes of the count. -/
theorem decode_governanceType_zeros (bs : Bytes) :
    decode reader GovernanceType (0 :: 0 :: 0 :: 0 :: bs) =
      (readNat 8 (0 :: 0 :: bs)).map fun r => (MaxPrimaryStake.new (.num r.1), r.2) := by
  simp only [GovernanceType, ConfigAccount, MaxPrimaryStake.fields, valueFields, variants_cons,
    struct_cons, struct_nil, decode, if_true]
  cases readNat 8 (0 :: 0 :: bs) <;> rfl

theorem encode_maxPrimaryStake {n : Int} {bs : Bytes}
    (h : encode GovernanceType (MaxPrimaryStake.new (.num n)) = some bs) :
    0 ≤ n ∧ n < 256 ^ 8 ∧ bs = 0 :: 0 :: leBytes 8 n.toNat := by
  simp only [GovernanceType, ConfigAccount, MaxPrimaryStake.fields, valueFields, MaxPrimaryStake.new,
    leaf, variants_cons, struct_cons, struct_nil, encode, Object.get_cons, if_true] at h
  split at h
  · rename_i hn
    cases h
    exact ⟨hn.1, hn.2, by simp⟩
  · cases h

/-- Four zero bytes too many in front move a value up by 32 bits. -/
theorem readNat_shifted (n : Nat) :
    readNat 8 (0 :: 0 :: 0 :: 0 :: leBytes 8 n) =
      some (2 ^ 32 * (n % 2 ^ 32), leBytes 4 (n / 2 ^ 32)) := by
  have hsplit : (0 : UInt8) :: 0 :: 0 :: 0 :: leBytes 8 n =
      ([0, 0, 0, 0] ++ leBytes 4 n) ++ leBytes 4 (n / 2 ^ 32) := by
    rw [leBytes_add 4 4 n]
    rfl
  rw [hsplit, readNat, takeBytes_append (by simp), Option.map_some]
  simp only [List.cons_append, List.nil_append, leNat, leNat_leBytes]
  congr 2
  simp
  omega

/-- A governance type that survives the shift is a `MaxPrimaryStake` of zero, and leaves the last
four bytes unread. -/
theorem maxPrimaryStake_zero_of_shifted {v : Value} {gov left : Bytes}
    (hg : encode GovernanceType v = some gov)
    (hread : decode reader GovernanceType (0 :: 0 :: 0 :: 0 :: gov) = some (v, left)) :
    v = MaxPrimaryStake.new (.num 0) ∧ left ≠ [] := by
  rw [decode_governanceType_zeros] at hread
  obtain ⟨⟨m, left'⟩, hm, h⟩ := Option.map_eq_some_iff.mp hread
  obtain ⟨rfl, rfl⟩ := Prod.mk.inj h
  obtain ⟨-, hlt, rfl⟩ := encode_maxPrimaryStake hg
  rw [Int.toNat_natCast, readNat_shifted] at hm
  obtain ⟨hvalue, hleft⟩ := Prod.mk.inj (Option.some.inj hm)
  have hzero : m = 0 := by omega
  refine ⟨by rw [hzero]; rfl, fun h => ?_⟩
  have hlength := congrArg List.length (hleft.trans h)
  simp at hlength

theorem decodesBack_iff (reader : Reader) {o : Object} (ho : HasMembers stored o) :
    DecodesBack reader fields stored o ↔ reader.allowTrailing = true ∧ o.get "votes" = .map [] ∧
      o.get "governance_type" = MaxPrimaryStake.new (.num 0) := by
  have hleading : HasMembers leadingFields o := fun f hf => ho f (List.mem_append_left _ hf)
  have htype : HasType GovernanceType (o.get "governance_type") :=
    ho ("governance_type", GovernanceType) (by decide)
  rw [fields, stored, decodesBack_shifted_iff (by decide) (by decide) (by decide) (by decide)
    (by decide) hleading (ho ("votes", storedVotes) (by decide))]
  simp only [encode_struct_singleton, decode_struct_singleton, List.forall_mem_singleton]
  constructor
  · intro ⟨hnil, gov, o', left, hgov, hread, hleft, hsame⟩
    obtain ⟨⟨g, left'⟩, hg, heq⟩ := Option.map_eq_some_iff.mp hread
    cases heq
    rcases hsame with hsame | ⟨_, hmap⟩
    · have hsame : g = o.get "governance_type" := hsame
      rw [hsame] at hg
      obtain ⟨hzero, hne⟩ := maxPrimaryStake_zero_of_shifted hgov hg
      exact ⟨hleft.resolve_left hne, hnil, hzero⟩
    · rw [hmap] at htype
      exact htype.elim
  · intro ⟨htrailing, hnil, hmax⟩
    have hgov : encode GovernanceType (MaxPrimaryStake.new (.num 0)) =
        some (0 :: 0 :: leBytes 8 0) := by decide
    have hread : decode reader GovernanceType ([0, 0, 0, 0] ++ 0 :: 0 :: leBytes 8 0) =
        some (MaxPrimaryStake.new (.num 0), [0, 0, 0, 0]) := rfl
    exact ⟨hnil, _, [("governance_type", MaxPrimaryStake.new (.num 0))], [0, 0, 0, 0],
      by rw [hmax, hgov], by rw [hread]; rfl, .inr htrailing, .inl hmax.symm⟩

end GovernanceData

/-- **Stored accounts.** A governance account decodes to what was encoded exactly when trailing bytes
are allowed, nobody voted and the proposal is a `MaxPrimaryStake` of zero; an NFT account exactly when
trailing bytes are allowed and it holds no vote. -/
theorem accounts_decode_iff_no_votes (reader : Reader) :
    (∀ g, HasMembers GovernanceData.stored g →
      (DecodesBack reader GovernanceData.fields GovernanceData.stored g ↔
        reader.allowTrailing = true ∧ Object.get g "votes" = .map [] ∧
          Object.get g "governance_type" = MaxPrimaryStake.new (.num 0))) ∧
    (∀ n, HasMembers NftData.stored n →
      (DecodesBack reader NftData.fields NftData.stored n ↔
        reader.allowTrailing = true ∧ Object.get n "all_votes" = .map [])) :=
  ⟨fun _ hg => GovernanceData.decodesBack_iff reader hg,
    fun _ hn => NftData.decodesBack_iff reader hn⟩

/-- A proposal to raise the commission with one vote, and an NFT that voted once. -/
def votedGovernance : Object := [
  ("validation_phrase", .num 347), ("expiration_time", .num 1675200000),
  ("is_still_ongoing", .bool true), ("is_proposal_executed", .bool false),
  ("title", .str "Commission"), ("description", .str "Set the commission to 8"),
  ("votes", .map [(.num 3, .bool true)]), ("governance_type", Commission.new (.num 8))]

def votedNft : Object := [
  ("validation_phrase", .num 834), ("funds_location", .variant 1 (.object [])),
  ("numeration", .num 3), ("date_created", .num 1675100000), ("all_withdraws", .array []),
  ("all_votes", .map [(.num 0, .bool true)])]

theorem hasMembers_votedGovernance : HasMembers GovernanceData.stored votedGovernance := by
  simp [HasMembers, GovernanceData.stored, GovernanceData.leadingFields, votedGovernance,
    storedVotes, HasType, GovernanceType, VoteAccount, Commission.new, leaf, Commission.fields,
    valueFields]
  decide

theorem hasMembers_votedNft : HasMembers NftData.stored votedNft := by
  simp [HasMembers, NftData.stored, NftData.leadingFields, votedNft, storedVotes, HasType,
    FundsLocation, Undelegated]

theorem not_decodesBack_voted :
    HasMembers GovernanceData.stored votedGovernance ∧ HasMembers NftData.stored votedNft ∧
      ∀ reader, ¬DecodesBack reader GovernanceData.fields GovernanceData.stored votedGovernance ∧
        ¬DecodesBack reader NftData.fields NftData.stored votedNft := by
  refine ⟨hasMembers_votedGovernance, hasMembers_votedNft, fun reader => ⟨fun h => ?_, fun h => ?_⟩⟩
  · cases ((GovernanceData.decodesBack_iff reader hasMembers_votedGovernance).mp h).2.1
  · cases ((NftData.decodesBack_iff reader hasMembers_votedNft).mp h).2

/-- An NFT that never voted. -/
def freshNft : Object := [
  ("validation_phrase", .num 834), ("funds_location", .variant 1 (.object [])),
  ("numeration", .num 3), ("date_created", .num 1675100000), ("all_withdraws", .array []),
  ("all_votes", .map [])]

theorem accounts_decode_iff_no_votes_fresh :
    ¬DecodesBack (.plain true) GovernanceData.fields GovernanceData.stored votedGovernance ∧
      DecodesBack (.plain true) NftData.fields NftData.stored freshNft := by
  constructor
  · intro h
    cases (((accounts_decode_iff_no_votes (.plain true)).1 _ hasMembers_votedGovernance).mp h).2.1
  · refine ((accounts_decode_iff_no_votes (.plain true)).2 freshNft ?_).mpr ⟨rfl, rfl⟩
    simp [HasMembers, NftData.stored, NftData.leadingFields, freshNft, storedVotes, HasType,
      FundsLocation, Undelegated]

end InglMonitor
