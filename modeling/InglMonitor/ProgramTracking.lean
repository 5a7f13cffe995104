import InglMonitor.ProgramService
import Mathlib.Data.List.Induction

/-! Which programs are marked as used. The filter of `useProgramId` names a path that the schema does
not have, so a call marks the first program of the list or none at all. -/

open Borsh DocumentStore

namespace InglMonitor

namespace ProgramService

inductive Call where
  | findProgram (usage : ProgramUsage) (connection : Connection)
  | useProgramId (programId : String)

/-- The list after a call. -/
def serve (strictQuery : Bool) (programs : List Program) : Call → List Program
  | .findProgram _ _ => programs
  | .useProgramId programId => useProgramId strictQuery programs programId

def Used (programs : List Program) (programId : String) : Prop :=
  ∃ program ∈ programs, program.programId = programId ∧ program.isUsed

def Listed (programs : List Program) (programId : String) : Prop :=
  programId ∈ programs.map (·.programId)

/-- After every beginning of the sequence, the used programs are those of the start and the listed ones
that were passed to `useProgramId`, and `findProgram` returns none that was passed. -/
structure TracksUsed (web3 : Web3) (strictQuery : Bool) (programs : List Program) (calls : List Call) :
    Prop where
  used : ∀ done, done <+: calls → ∀ programId,
    Used (done.foldl (serve strictQuery) programs) programId ↔
      Used programs programId ∨ Listed programs programId ∧ .useProgramId programId ∈ done
  returned : ∀ done usage connection program, done ++ [.findProgram usage connection] <+: calls →
    findProgram web3 connection strictQuery (.ok (done.foldl (serve strictQuery) programs)) usage =
      .ok program →
    .useProgramId program.programId ∉ done

/-- A call finds its program absent or used, or first on the list; and if the path is dropped from the
filter, the first program is its own or used. -/
def HitsItsProgram (strictQuery : Bool) (programs : List Program) (programId : String) : Prop :=
  (Listed programs programId → Used programs programId ∨
    strictQuery ∧ ∃ first ∈ programs.head?, first.programId = programId) ∧
  (strictQuery → ∀ first ∈ programs.head?, first.isUsed ∨ first.programId = programId)

variable {strictQuery : Bool} {programs : List Program}

theorem used_of_mem (hnodup : (programs.map (·.programId)).Nodup) {program : Program}
    (hmem : program ∈ programs) : Used programs program.programId ↔ program.isUsed = true := by
  constructor
  · rintro ⟨other, hother, hid, hused⟩
    rwa [← List.inj_on_of_nodup_map hnodup hother hmem hid]
  · exact fun hused => ⟨program, hmem, rfl, hused⟩

theorem used_cons {program : Program} {programId : String} :
    Used (program :: programs) programId ↔
      program.programId = programId ∧ program.isUsed = true ∨ Used programs programId := by
  simp [Used]

/-- The first program is marked, or none. -/
theorem used_useProgramId (programId id : String) :
    Used (useProgramId strictQuery programs programId) id ↔
      Used programs id ∨ strictQuery ∧ ∃ first ∈ programs.head?, first.programId = id := by
  cases strictQuery with
  | false => simp [useProgramId_false]
  | true =>
      cases programs with
      | nil => simp [useProgramId, updateOne]
      | cons first rest =>
          rw [useProgramId_true, used_cons, used_cons]
          simp only [and_true, true_and, List.head?_cons, Option.mem_some_iff, exists_eq_left']
          grind

theorem map_programId_serve (call : Call) :
    (serve strictQuery programs call).map (·.programId) = programs.map (·.programId) := by
  cases call with
  | findProgram usage connection => rfl
  | useProgramId programId =>
      cases strictQuery with
      | false => rw [serve, useProgramId_false]
      | true =>
          cases programs with
          | nil => rfl
          | cons first rest => rw [serve, useProgramId_true]; rfl

theorem map_programId_foldl (strictQuery : Bool) (programs : List Program) (calls : List Call) :
    (calls.foldl (serve strictQuery) programs).map (·.programId) = programs.map (·.programId) := by
  induction calls generalizing programs with
  | nil => rfl
  | cons call calls ih => rw [List.foldl_cons, ih, map_programId_serve]

theorem listed_foldl {calls : List Call} {programId : String} :
    Listed (calls.foldl (serve strictQuery) programs) programId ↔ Listed programs programId := by
  rw [Listed, map_programId_foldl, Listed]

/-- A call marks exactly its own program when it hits it. -/
theorem useProgramId_tracks_iff (hnodup : (programs.map (·.programId)).Nodup) (programId : String) :
    (∀ id, Used (useProgramId strictQuery programs programId) id ↔
        Used programs id ∨ Listed programs id ∧ id = programId) ↔
      HitsItsProgram strictQuery programs programId := by
  simp only [used_useProgramId]
  constructor
  · refine fun h => ⟨fun hlisted => (h programId).mpr (.inr ⟨hlisted, rfl⟩), fun hstrict first hfirst => ?_⟩
    have hmem := List.mem_of_mem_head? hfirst
    refine ((h first.programId).mp (.inr ⟨hstrict, first, hfirst, rfl⟩)).imp ?_ (·.2)
    exact (used_of_mem hnodup hmem).mp
  · rintro ⟨hown, hfirst⟩ id
    constructor
    · rintro (hused | ⟨hstrict, first, hhead, rfl⟩)
      · exact .inl hused
      · have hmem := List.mem_of_mem_head? hhead
        refine (hfirst hstrict first hhead).imp (used_of_mem hnodup hmem).mpr fun hid => ?_
        exact ⟨List.mem_map_of_mem hmem, hid⟩
    · rintro (hused | ⟨hlisted, rfl⟩)
      · exact .inl hused
      · exact hown hlisted

/-! ### Sequences of calls -/

/-- Once every call so far has hit its program, the used programs are as they should be. -/
theorem used_foldl_iff (hnodup : (programs.map (·.programId)).Nodup) {calls : List Call}
    (hhits : ∀ done programId rest, calls = done ++ .useProgramId programId :: rest →
      HitsItsProgram strictQuery (done.foldl (serve strictQuery) programs) programId) (id : String) :
    Used (calls.foldl (serve strictQuery) programs) id ↔
      Used programs id ∨ Listed programs id ∧ .useProgramId id ∈ calls := by
  induction calls using List.reverseRecOn with
  | nil => simp
  | append_singleton calls call ih =>
      have ih := ih fun done programId rest h =>
        hhits done programId (rest ++ [call]) (by rw [h]; simp)
      rw [List.foldl_append, List.foldl_cons, List.foldl_nil]
      cases call with
      | findProgram usage connection =>
          rw [serve, ih]
          simp
      | useProgramId programId =>
          have hids := map_programId_foldl strictQuery programs calls
          have hcall :=
            (useProgramId_tracks_iff (hids ▸ hnodup) programId).mpr (hhits calls programId [] rfl)
          rw [serve, hcall, ih, listed_foldl, or_assoc, ← and_or_left]
          simp only [List.mem_append, List.mem_singleton, Call.useProgramId.injEq]

/-- **Used programs.** They are tracked exactly when every call of `useProgramId` hits its program. -/
theorem tracksUsed_iff (web3 : Web3) (strictQuery : Bool) {programs : List Program}
    (hnodup : (programs.map (·.programId)).Nodup) (calls : List Call) :
    TracksUsed web3 strictQuery programs calls ↔
      ∀ done programId rest, calls = done ++ .useProgramId programId :: rest →
        HitsItsProgram strictQuery (done.foldl (serve strictQuery) programs) programId := by
  constructor
  · rintro ⟨hused, -⟩ done programId rest hcalls
    have hids := map_programId_foldl strictQuery programs done
    refine (useProgramId_tracks_iff (hids ▸ hnodup) programId).mp fun id => ?_
    have hbefore := hused done ⟨.useProgramId programId :: rest, hcalls.symm⟩ id
    have hafter := hused (done ++ [.useProgramId programId]) ⟨rest, by rw [hcalls]; simp⟩ id
    rw [List.foldl_append, List.foldl_cons, List.foldl_nil, serve] at hafter
    rw [hafter, hbefore, listed_foldl, or_assoc, ← and_or_left]
    simp only [List.mem_append, List.mem_singleton, Call.useProgramId.injEq]
  · intro hhits
    have hbegins {done : List Call} (hdone : done <+: calls) (id : String) :
        Used (done.foldl (serve strictQuery) programs) id ↔
          Used programs id ∨ Listed programs id ∧ .useProgramId id ∈ done := by
      obtain ⟨rest, rfl⟩ := hdone
      refine used_foldl_iff hnodup (fun done' programId rest' h => ?_) id
      exact hhits done' programId (rest' ++ rest) (by rw [h]; simp)
    refine ⟨fun done hdone => hbegins hdone, fun done usage connection program hdone hfound hpassed => ?_⟩
    obtain ⟨hmem, hunused, -⟩ := findProgram_eq_ok hfound
    have hids := map_programId_foldl strictQuery programs done
    have hlisted := listed_foldl.mp (List.mem_map_of_mem hmem : Listed _ program.programId)
    have hused := (hbegins ((List.prefix_append _ _).trans hdone) program.programId).mpr
      (.inr ⟨hlisted, hpassed⟩)
    rw [used_of_mem (hids ▸ hnodup) hmem, hunused] at hused
    cases hused

-- Two unused programs.

def firstProgram : Program where
  programId := "9DvpyaJmpAag7spwD4VnjFyZmeoy8HZeXhwvNMKi64hh"
  usage := .permissionlessValidator
  isUsed := false

def secondProgram : Program where
  programId := "9Wv563JZ91RyYc2XfwJf4XWJMH47JNGCVtLFteDVenjj"
  usage := .permissionlessValidator
  isUsed := false

/-- The library where no address is derived. -/
def parsingWeb3 : Web3 where
  publicKey address := .ok ⟨address⟩
  toBuffer _ := []
  findProgramAddressSync _ _ := .error "Unable to find a viable program address nonce"

theorem first_tracksUsed_iff :
    TracksUsed parsingWeb3 true [firstProgram, secondProgram]
        [.useProgramId firstProgram.programId] ↔
      ∀ done programId rest,
        [.useProgramId firstProgram.programId] = done ++ .useProgramId programId :: rest →
        HitsItsProgram true (done.foldl (serve true) [firstProgram, secondProgram]) programId :=
  tracksUsed_iff parsingWeb3 true (by decide) _

/-- The second program is passed: the first one is marked, or none. -/
theorem second_not_tracksUsed :
    ¬TracksUsed parsingWeb3 true [firstProgram, secondProgram]
        [.useProgramId secondProgram.programId] ∧
      ¬TracksUsed parsingWeb3 false [firstProgram, secondProgram]
        [.useProgramId secondProgram.programId] := by
  constructor
  · rintro ⟨hused, -⟩
    have hfirst := hused _ List.prefix_rfl firstProgram.programId
    simp [serve, useProgramId_true, Used, firstProgram, secondProgram] at hfirst
  · rintro ⟨hused, -⟩
    have hsecond := hused _ List.prefix_rfl secondProgram.programId
    simp [serve, useProgramId_false, Used, Listed, firstProgram, secondProgram] at hsecond

end ProgramService

end InglMonitor
