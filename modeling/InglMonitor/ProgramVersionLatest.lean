import InglMonitor.ProgramVersion
import Mathlib.Algebra.Order.Ring.Rat

/-! The latest version. The versions of a usage are sorted by their numbers, and the first of them is
the answer; the order is ascending, so that it is the oldest. -/

open DocumentStore

namespace InglMonitor

/-- `xs.sort(compareFn)`: a stable sort, in which `a` may stand in front of `b` unless `compareFn(a, b)`
is positive. -/
def sort {α : Type} (compareFn : α → α → ℚ) (xs : List α) : List α :=
  xs.mergeSort fun a b => compareFn a b ≤ 0

theorem mem_sort {α : Type} {compareFn : α → α → ℚ} {xs : List α} {x : α} :
    x ∈ sort compareFn xs ↔ x ∈ xs :=
  List.mem_mergeSort

namespace ProgramVersionService

/-- `findAll(usage)`. -/
def findAll (versions : List ProgramVersion) (usage : ProgramUsage) : List ProgramVersion :=
  find (programVersionSchema.matching true [("usage", .str usage.text)]) versions

/-- `none` is `undefined`. -/
def findLastestVersion (versions : List ProgramVersion) (usage : ProgramUsage) :
    Option ProgramVersion :=
  (sort (fun a b => a.version - b.version) (findAll versions usage)).head?

variable {versions : List ProgramVersion} {usage : ProgramUsage}

theorem mem_findAll_iff {v : ProgramVersion} :
    v ∈ findAll versions usage ↔ v ∈ versions ∧ v.usage = usage := by
  simp [findAll, find, Schema.matching, programVersionSchema, ProgramUsage.text_injective.eq_iff]

/-! ### What is found -/

/-- A stored version of the usage with no greater one beside it. -/
structure IsLatest (versions : List ProgramVersion) (usage : ProgramUsage) (v : ProgramVersion) :
    Prop where
  stored : v ∈ versions
  ofUsage : v.usage = usage
  greatest : ∀ w ∈ versions, w.usage = usage → w.version ≤ v.version

/-- The head of the sorted list is no greater than any other version. -/
theorem sort_version_head_le {xs : List ProgramVersion} {v : ProgramVersion}
    (h : (sort (fun a b => a.version - b.version) xs).head? = some v) :
    v ∈ xs ∧ ∀ w ∈ xs, v.version ≤ w.version := by
  obtain ⟨rest, hsort⟩ : ∃ rest, sort (fun a b => a.version - b.version) xs = v :: rest :=
    List.head?_eq_some_iff.mp h
  have hsorted : (sort (fun a b => a.version - b.version) xs).Pairwise
      fun a b => decide (a.version - b.version ≤ 0) = true := by
    apply List.pairwise_mergeSort
    · intro a b c hab hbc
      simp only [decide_eq_true_eq, sub_nonpos] at hab hbc ⊢
      exact hab.trans hbc
    · intro a b
      simp only [Bool.or_eq_true, decide_eq_true_eq, sub_nonpos]
      exact le_total a.version b.version
  have hmem {w : ProgramVersion} : w ∈ xs ↔ w ∈ v :: rest := by
    rw [← hsort]
    exact mem_sort.symm
  rw [hsort, List.pairwise_cons] at hsorted
  refine ⟨hmem.mpr List.mem_cons_self, fun w hw => ?_⟩
  rcases List.mem_cons.mp (hmem.mp hw) with rfl | hw
  · exact le_rfl
  · have hle := hsorted.1 w hw
    rwa [decide_eq_true_eq, sub_nonpos] at hle

/-- A version is found, and it is one of the oldest. -/
theorem findLastestVersion_oldest (h : ∃ v ∈ versions, v.usage = usage) :
    ∃ v, findLastestVersion versions usage = some v ∧ v ∈ versions ∧ v.usage = usage ∧
      ∀ w ∈ versions, w.usage = usage → v.version ≤ w.version := by
  obtain ⟨w, hw⟩ := h
  have hfound : findLastestVersion versions usage ≠ none := by
    intro hnone
    have hmem := (@mem_sort _ (fun a b => a.version - b.version) _ _).mpr (mem_findAll_iff.mpr hw)
    rw [List.head?_eq_none_iff.mp hnone] at hmem
    cases hmem
  obtain ⟨v, hv⟩ := Option.ne_none_iff_exists'.mp hfound
  obtain ⟨hmem, hle⟩ := sort_version_head_le hv
  obtain ⟨hstored, husage⟩ := mem_findAll_iff.mp hmem
  exact ⟨v, hv, hstored, husage, fun w hw hwusage => hle w (mem_findAll_iff.mpr ⟨hw, hwusage⟩)⟩

/-- **The latest version.** The oldest version is the latest only where there is nothing to choose: all
versions of the usage have the same number. -/
theorem findLastestVersion_isLatest_iff (h : ∃ v ∈ versions, v.usage = usage) :
    (∃ v, findLastestVersion versions usage = some v ∧ IsLatest versions usage v) ↔
      ∀ v ∈ versions, ∀ w ∈ versions, v.usage = usage → w.usage = usage → v.version = w.version := by
  obtain ⟨oldest, hfound, hmem, husage, hle⟩ := findLastestVersion_oldest h
  constructor
  · rintro ⟨v, hv, hlatest⟩
    cases hfound.symm.trans hv
    have hall : ∀ w ∈ versions, w.usage = usage → w.version = oldest.version := fun w hw hwusage =>
      le_antisymm (hlatest.greatest w hw hwusage) (hle w hw hwusage)
    intro v hv w hw hvusage hwusage
    rw [hall v hv hvusage, hall w hw hwusage]
  · intro hall
    exact ⟨oldest, hfound, hmem, husage, fun w hw hwusage =>
      (hall w hw oldest hmem hwusage husage).le⟩

/-- A marketplace in two versions, the newer one registered first. -/
def twoVersions : List ProgramVersion := [
  ⟨"3bdbb4fe8397cd2b842430b39ccff01a8663c751945ef5e9a09e267fb8b1d359", 2, .safe, .marketplace⟩,
  ⟨"e3b0c44298fc1c149afbf4c8996fb92427ae41e4649b934ca495991b7852b855", 1, .deprecated, .marketplace⟩]

theorem findLastestVersion_isLatest_iff_two :
    (∃ v, findLastestVersion twoVersions .marketplace = some v ∧
        IsLatest twoVersions .marketplace v) ↔
      ∀ v ∈ twoVersions, ∀ w ∈ twoVersions, v.usage = .marketplace → w.usage = .marketplace →
        v.version = w.version :=
  findLastestVersion_isLatest_iff ⟨_, List.mem_cons_self, rfl⟩

theorem not_isLatest_twoVersions : ¬∃ v, findLastestVersion twoVersions .marketplace = some v ∧
    IsLatest twoVersions .marketplace v := by
  rintro ⟨v, hfound, hlatest⟩
  obtain ⟨oldest, holdest, -, -, hle⟩ := @findLastestVersion_oldest twoVersions .marketplace
    ⟨_, List.mem_cons_self, rfl⟩
  cases hfound.symm.trans holdest
  have hone := hle _ (List.mem_cons_of_mem _ List.mem_cons_self) rfl
  have htwo := hlatest.greatest _ List.mem_cons_self rfl
  exact absurd (htwo.trans hone) (by decide)

end ProgramVersionService

end InglMonitor
