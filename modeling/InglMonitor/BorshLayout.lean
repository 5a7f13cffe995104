import InglMonitor.BorshSchema
import Mathlib.Logic.Function.Iterate

/-! Where the members of a class lie in a buffer. The bytes of numbers, options, sequences and classes
are delimited by the tags and counts among them, and any bytes will do for the rest: such a class is
read exactly from the buffers that are long enough, and each member from its own offset. -/

namespace Borsh

/-- The number of some width at an offset. -/
def numberAt (bs : Bytes) (offset width : Nat) : Nat := leNat ((bs.drop offset).take width)

namespace FieldType

/-- Numbers, and options, sequences and classes of such: every byte string of the right length is a
value. -/
def isSized : FieldType → Bool
  | .uint _ | .noMembers => true
  | .option t | .vec t | .fixedArray t _ => t.isSized
  | .member _ t rest => t.isSized && rest.isSized
  | _ => false

end FieldType

/-- Where a value that starts at an offset ends. -/
def endOf : FieldType → Bytes → Nat → Nat
  | .uint width, _, offset => offset + width
  | .option t, bs, offset => if bs[offset]? = some 0 then offset + 1 else endOf t bs (offset + 1)
  | .vec t, bs, offset => (endOf t bs)^[numberAt bs offset 4] (offset + 4)
  | .fixedArray t size, bs, offset => (endOf t bs)^[size] offset
  | .member _ t rest, bs, offset => endOf rest bs (endOf t bs offset)
  | _, _, offset => offset

theorem le_iterate {f : Nat → Nat} (hf : ∀ n, n ≤ f n) (count n : Nat) : n ≤ f^[count] n := by
  induction count generalizing n with
  | zero => exact Nat.le_refl n
  | succ count ih => exact Nat.le_trans (hf n) (ih (f n))

theorem le_endOf (t : FieldType) (bs : Bytes) (offset : Nat) : offset ≤ endOf t bs offset := by
  induction t generalizing offset with
  | uint width => exact Nat.le_add_right ..
  | option t ih =>
      rw [endOf]
      split
      · exact Nat.le_succ _
      · exact Nat.le_trans (Nat.le_succ _) (ih _)
  | vec t ih => exact Nat.le_trans (Nat.le_add_right _ 4) (le_iterate ih _ _)
  | fixedArray t size ih => exact le_iterate ih _ _
  | member name t rest iht ihrest => exact Nat.le_trans (iht offset) (ihrest _)
  | _ => exact Nat.le_refl offset

/-- The reader, started at an offset, stops at another one, if the buffer reaches so far. -/
def StopsAt {α : Type} (read : Bytes → Option (α × Bytes)) (bs : Bytes) (offset stop : Nat) : Prop :=
  (read (bs.drop offset)).map Prod.snd = if stop ≤ bs.length then some (bs.drop stop) else none

section StopsAt

variable {α β : Type} {read : Bytes → Option (α × Bytes)} {bs : Bytes} {offset stop : Nat}

theorem StopsAt.of_le (h : StopsAt read bs offset stop) (hstop : stop ≤ bs.length) :
    ∃ v, read (bs.drop offset) = some (v, bs.drop stop) := by
  rw [StopsAt, if_pos hstop] at h
  obtain ⟨⟨v, rest⟩, hread, rfl⟩ := Option.map_eq_some_iff.mp h
  exact ⟨v, hread⟩

theorem StopsAt.of_eq_some (h : StopsAt read bs offset stop) {v : α} {rest : Bytes}
    (hread : read (bs.drop offset) = some (v, rest)) : stop ≤ bs.length ∧ rest = bs.drop stop := by
  rw [StopsAt, hread, Option.map_some] at h
  split at h
  · exact ⟨‹_›, Option.some.inj h⟩
  · cases h

theorem StopsAt.of_lt (h : StopsAt read bs offset stop) (hstop : bs.length < stop) :
    read (bs.drop offset) = none := by
  rw [StopsAt, if_neg (Nat.not_le.mpr hstop)] at h
  exact Option.map_eq_none_iff.mp h

/-- One reader behind another. -/
theorem StopsAt.bind {next : α → Bytes → Option (β × Bytes)} {stop' : Nat}
    (h : StopsAt read bs offset stop) (hle : stop ≤ stop')
    (hnext : ∀ v, stop ≤ bs.length → StopsAt (next v) bs stop stop') :
    StopsAt (fun bs => (read bs).bind fun r => next r.1 r.2) bs offset stop' := by
  by_cases hstop : stop ≤ bs.length
  · obtain ⟨v, hread⟩ := h.of_le hstop
    rw [StopsAt, hread, Option.bind_some]
    exact hnext v hstop
  · rw [StopsAt, h.of_lt (Nat.not_le.mp hstop), if_neg fun hle' => hstop (Nat.le_trans hle hle')]
    rfl

theorem StopsAt.map (h : StopsAt read bs offset stop) (f : α → β) :
    StopsAt (fun bs => (read bs).map fun r => (f r.1, r.2)) bs offset stop := by
  rw [StopsAt, Option.map_map]
  exact h

theorem StopsAt.pure (h : StopsAt read bs offset stop) (f : α → β) :
    StopsAt (fun bs => (read bs).bind fun r => some (f r.1, r.2)) bs offset stop := by
  rw [StopsAt] at h ⊢
  rw [← h]
  cases read (bs.drop offset) <;> rfl

theorem stopsAt_readAll {step : Nat → Nat} (hle : ∀ offset, offset ≤ step offset)
    (h : ∀ offset, offset ≤ bs.length → StopsAt read bs offset (step offset)) (count : Nat)
    (hoffset : offset ≤ bs.length) :
    StopsAt (readAll read count) bs offset (step^[count] offset) := by
  induction count generalizing offset with
  | zero => exact (if_pos hoffset).symm
  | succ count ih =>
      rw [Function.iterate_succ_apply]
      exact (h offset hoffset).bind (le_iterate hle count _) fun v hstop =>
        (ih hstop).pure fun vs => v :: vs

theorem stopsAt_readNat (width : Nat) (hoffset : offset ≤ bs.length) :
    StopsAt (readNat width) bs offset (offset + width) := by
  rw [StopsAt, readNat, takeBytes, List.length_drop]
  by_cases h : offset + width ≤ bs.length
  · rw [if_pos h, if_pos (by omega), List.drop_drop]
    rfl
  · rw [if_neg h, if_neg (by omega)]
    rfl

theorem readNat_drop {width n : Nat} {rest : Bytes}
    (h : readNat width (bs.drop offset) = some (n, rest)) : n = numberAt bs offset width := by
  obtain ⟨⟨front, rest'⟩, htake, hn⟩ := Option.map_eq_some_iff.mp h
  obtain ⟨-, hfront⟩ := Option.ite_none_right_eq_some.mp htake
  cases hfront
  cases hn
  rfl

end StopsAt

variable {reader : Reader}

/-- An option is read by its tag. -/
theorem decode_option_drop (t : FieldType) (bs : Bytes) (offset : Nat) :
    decode reader (.option t) (bs.drop offset) =
      match bs[offset]? with
      | none => none
      | some b =>
          if b = 0 then some (.undefined, bs.drop (offset + 1))
          else decode reader t (bs.drop (offset + 1)) := by
  by_cases hlt : offset < bs.length
  · rw [List.drop_eq_getElem_cons hlt, decode, List.getElem?_eq_getElem hlt]
  · rw [List.drop_eq_nil_of_le (Nat.not_lt.mp hlt), List.getElem?_eq_none (Nat.not_lt.mp hlt)]
    rfl

/-- **Layout.** A class of sized members is read from an offset on exactly if the buffer reaches to where
its tags and counts say that it ends. -/
theorem stopsAt_decode {t : FieldType} (ht : t.isSized) {bs : Bytes} {offset : Nat}
    (hoffset : offset ≤ bs.length) : StopsAt (decode reader t) bs offset (endOf t bs offset) := by
  induction t generalizing offset with
  | uint width => exact (stopsAt_readNat width hoffset).map fun n => Value.num n
  | option t ih =>
      have hend := le_endOf t bs (offset + 1)
      rw [StopsAt, decode_option_drop, endOf]
      cases hget : bs[offset]? with
      | none =>
          have hlength := List.getElem?_eq_none_iff.mp hget
          have hlong : ¬(if (none : Option UInt8) = some 0 then offset + 1
              else endOf t bs (offset + 1)) ≤ bs.length := by
            rw [if_neg (Option.some_ne_none 0).symm]
            omega
          rw [if_neg hlong]
          rfl
      | some b =>
          obtain ⟨hlt, -⟩ := List.getElem?_eq_some_iff.mp hget
          by_cases hb : b = 0
          · simp only [hb, if_true]
            rw [if_pos (Nat.succ_le_of_lt hlt)]
            rfl
          · rw [if_neg fun h => hb (Option.some.inj h)]
            simp only [hb, if_false]
            exact ih ht (Nat.succ_le_of_lt hlt)
  | vec t ih =>
      have hstart : StopsAt (readNat 4) bs offset (offset + 4) := stopsAt_readNat 4 hoffset
      by_cases hstop : offset + 4 ≤ bs.length
      · obtain ⟨n, hread⟩ := hstart.of_le hstop
        rw [StopsAt, decode, hread]
        cases readNat_drop hread
        exact (stopsAt_readAll (le_endOf t bs) (fun _ => ih ht) _ hstop).pure Value.array
      · have hend := le_iterate (le_endOf t bs) (numberAt bs offset 4) (offset + 4)
        rw [StopsAt, decode, hstart.of_lt (Nat.not_le.mp hstop), endOf, if_neg (by omega)]
        rfl
  | fixedArray t size ih =>
      exact (stopsAt_readAll (le_endOf t bs) (fun _ => ih ht) size hoffset).map Value.array
  | noMembers => exact (if_pos hoffset).symm
  | member name t rest iht ihrest =>
      obtain ⟨ht, hrest⟩ := Bool.and_eq_true_iff.mp ht
      exact (iht ht hoffset).bind (le_endOf rest bs _) fun v hstop =>
        (ihrest hrest hstop).pure fun w => consMember name v w
  | _ => cases ht

/-! ### The members of a class -/

/-- A class is read member by member: the first members, and the rest from where these end. -/
theorem decode_struct_split {fields fields' : Fields} {bs rest : Bytes} {v : Value}
    (h : decode reader (struct (fields ++ fields')) bs = some (v, rest)) :
    ∃ o w bs', decode reader (struct fields) bs = some (.object o, bs') ∧
      decode reader (struct fields') bs' = some (w, rest) ∧ v = prependMembers o w ∧
      o.map Prod.fst = fields.map Prod.fst := by
  induction fields generalizing bs v with
  | nil =>
      refine ⟨[], v, bs, rfl, h, ?_, rfl⟩
      cases v <;> rfl
  | cons f fields ih =>
      obtain ⟨⟨x, bs'⟩, hx, h⟩ := Option.bind_eq_some_iff.mp h
      obtain ⟨⟨w, rest'⟩, hw, h⟩ := Option.bind_eq_some_iff.mp h
      cases h
      obtain ⟨o, w', bs'', hfirst, hrest, rfl, hnames⟩ := ih hw
      refine ⟨(f.1, x) :: o, w', bs'', ?_, hrest, consMember_prependMembers .., ?_⟩
      · rw [struct_cons, decode, hx]
        simp only [Option.bind_eq_bind, Option.bind_some, hfirst]
        rfl
      · rw [List.map_cons, List.map_cons, hnames]

theorem get_append_of_not_mem {o o' : Object} {name : String} (h : name ∉ o.map Prod.fst) :
    Object.get (o ++ o') name = Object.get o' name := by
  induction o with
  | nil => rfl
  | cons p o ih =>
      rw [List.map_cons, List.mem_cons, not_or] at h
      rw [List.cons_append, Object.get_cons, if_neg h.1, ih h.2]

/-- A member is read from where the members in front of it end. -/
theorem decode_member {fields fields' : Fields} (hsized : (struct fields).isSized) {name : String}
    {t : FieldType} (hname : name ∉ fields.map Prod.fst) {bs rest : Bytes} {o : Object}
    (h : decode reader (struct (fields ++ (name, t) :: fields')) bs = some (.object o, rest)) :
    ∃ bs', decode reader t (bs.drop (endOf (struct fields) bs 0)) = some (Object.get o name, bs') := by
  obtain ⟨first, w, bs', hfirst, hrest, hobject, hnames⟩ := decode_struct_split h
  obtain ⟨⟨x, bs''⟩, hx, hrest⟩ := Option.bind_eq_some_iff.mp hrest
  obtain ⟨⟨w', rest'⟩, hw', hrest⟩ := Option.bind_eq_some_iff.mp hrest
  cases hrest
  have hstop := (stopsAt_decode hsized (Nat.zero_le bs.length)).of_eq_some hfirst
  rw [← hstop.2, hx]
  cases w' with
  | object o' =>
      cases hobject
      rw [get_append_of_not_mem (by rw [hnames]; exact hname), Object.get_cons, if_pos rfl]
      exact ⟨bs'', rfl⟩
  | _ => cases hobject

/-- A class of sized members is read exactly from the buffers of its length, or also from longer ones. -/
theorem deserialize_isSome_iff {fields : Fields} (hsized : (struct fields).isSized) {bs : Bytes} :
    (∃ o, deserialize reader fields bs = some o) ↔
      endOf (struct fields) bs 0 = bs.length ∨
        endOf (struct fields) bs 0 ≤ bs.length ∧ reader.allowTrailing = true := by
  have hstop := @stopsAt_decode reader _ hsized bs 0 (Nat.zero_le bs.length)
  constructor
  · rintro ⟨o, h⟩
    rw [deserialize] at h
    split at h
    · rename_i read rest hread
      obtain ⟨hle, rfl⟩ := hstop.of_eq_some hread
      obtain ⟨hrest, -⟩ := Option.ite_none_right_eq_some.mp h
      rcases hrest with hrest | hrest
      · exact .inl (Nat.le_antisymm hle (List.drop_eq_nil_iff.mp hrest))
      · exact .inr ⟨hle, hrest⟩
    · cases h
  · intro h
    have hle : endOf (struct fields) bs 0 ≤ bs.length := h.elim Nat.le_of_eq And.left
    obtain ⟨v, hread⟩ := hstop.of_le hle
    have hread' : decode reader (struct (fields ++ [])) bs =
        some (v, bs.drop (endOf (struct fields) bs 0)) := by
      rw [List.append_nil]
      exact hread
    obtain ⟨o, w, bs', -, hnil, rfl, -⟩ := decode_struct_split hread'
    cases hnil
    refine ⟨o ++ [], ?_⟩
    rw [List.drop_zero] at hread
    rw [deserialize, hread]
    refine if_pos (h.imp (fun heq => ?_) And.right)
    rw [heq, List.drop_length]

/-- Steps of one width. -/
theorem iterate_add (width count offset : Nat) :
    (fun n => n + width)^[count] offset = offset + width * count := by
  induction count generalizing offset with
  | zero => rfl
  | succ count ih => rw [Function.iterate_succ_apply, ih, Nat.mul_succ, Nat.add_assoc, Nat.add_comm width]

end Borsh
