import Mathlib.Data.List.Basic

/-! A document store by its collections: a collection is the list of its documents in natural order,
and a query or an update acts on the first document that matches, or on all of them. Filters are
lists of conditions on schema paths; a condition on a path the schema does not have is dropped under a
strict query setting, and matches nothing otherwise. -/

namespace DocumentStore

variable {Doc : Type}

def findOne (matching : Doc → Bool) (docs : List Doc) : Option Doc := docs.find? matching

def find (matching : Doc → Bool) (docs : List Doc) : List Doc := docs.filter matching

/-- `updateOne`: change the first match. -/
def updateOne (matching : Doc → Bool) (set : Doc → Doc) : List Doc → List Doc
  | [] => []
  | d :: docs => if matching d then set d :: docs else d :: updateOne matching set docs

theorem updateOne_of_not_matching {matching : Doc → Bool} {set : Doc → Doc} {docs : List Doc}
    (h : ∀ d ∈ docs, matching d = false) : updateOne matching set docs = docs := by
  induction docs with
  | nil => rfl
  | cons d docs ih =>
      rw [updateOne, h d List.mem_cons_self, if_neg Bool.false_ne_true,
        ih fun d hd => h d (List.mem_cons_of_mem _ hd)]

/-- An update that keeps the match is seen by the next query. -/
theorem findOne_updateOne {matching : Doc → Bool} {set : Doc → Doc}
    (hset : ∀ d, matching d → matching (set d)) (docs : List Doc) :
    findOne matching (updateOne matching set docs) = (findOne matching docs).map set := by
  induction docs with
  | nil => rfl
  | cons d docs ih =>
      rw [findOne] at ih ⊢
      cases hd : matching d with
      | true => simp [findOne, updateOne, hd, hset d hd]
      | false => simpa [findOne, updateOne, hd] using ih

section Updates

variable {matching : Doc → Bool}

theorem updateOne_updateOne {f : Doc → Doc} (hf : ∀ d, matching d → matching (f d)) (g : Doc → Doc)
    (docs : List Doc) :
    updateOne matching g (updateOne matching f docs) = updateOne matching (fun d => g (f d)) docs := by
  induction docs with
  | nil => rfl
  | cons d docs ih =>
      cases hd : matching d with
      | true => simp [updateOne, hd, hf d hd]
      | false => simpa [updateOne, hd] using ih

theorem updateOne_id (docs : List Doc) : updateOne matching (fun d => d) docs = docs := by
  induction docs with
  | nil => rfl
  | cons d docs ih => rw [updateOne, ih, ite_self]

/-- **Composition.** Updates with one filter that keep the match add up to a single one. -/
theorem foldl_updateOne {Write : Type} {set : Write → Doc → Doc} {writes : List Write}
    (hset : ∀ write ∈ writes, ∀ d, matching d → matching (set write d)) (docs : List Doc) :
    writes.foldl (fun docs write => updateOne matching (set write) docs) docs =
      updateOne matching (fun d => writes.foldl (fun d write => set write d) d) docs := by
  induction writes generalizing docs with
  | nil => exact (updateOne_id docs).symm
  | cons write writes ih =>
      obtain ⟨hwrite, hwrites⟩ := List.forall_mem_cons.mp hset
      rw [List.foldl_cons, ih hwrites, updateOne_updateOne hwrite]
      rfl

/-- What an update leaves alone in the match stays as it is in all documents, in their order. -/
theorem map_updateOne {α : Type} {key : Doc → α} {set : Doc → Doc}
    (hset : ∀ d, matching d → key (set d) = key d) (docs : List Doc) :
    (updateOne matching set docs).map key = docs.map key := by
  induction docs with
  | nil => rfl
  | cons d docs ih =>
      cases hd : matching d with
      | true => simp [updateOne, hd, hset d hd]
      | false => simpa [updateOne, hd] using ih

/-- An update changes no document but the first match. -/
theorem getElem?_updateOne {set : Doc → Doc} {docs : List Doc} {i : Nat}
    (hi : docs.findIdx? matching ≠ some i) : (updateOne matching set docs)[i]? = docs[i]? := by
  induction docs generalizing i with
  | nil => rfl
  | cons d docs ih =>
      rw [List.findIdx?_cons] at hi
      cases hd : matching d with
      | true =>
          cases i with
          | zero => simp [hd] at hi
          | succ i => simp [updateOne, hd]
      | false =>
          cases i with
          | zero => simp [updateOne, hd]
          | succ i =>
              have hi' : docs.findIdx? matching ≠ some i := by simpa [hd] using hi
              simpa [updateOne, hd] using ih hi'

end Updates

/-! ### Filters -/

/-- The values a filter compares a path with. -/
inductive Scalar where
  | str (s : String)
  | bool (b : Bool)
  deriving DecidableEq

/-- The paths of a schema, each with its value in a document. -/
structure Schema (Doc : Type) where
  path : String → Option (Doc → Scalar)

abbrev Filter := List (String × Scalar)

namespace Schema

def matching (schema : Schema Doc) (strictQuery : Bool) (filter : Filter) (d : Doc) : Bool :=
  filter.all fun c =>
    match schema.path c.1 with
    | some read => read d = c.2
    | none => strictQuery

end Schema

end DocumentStore
