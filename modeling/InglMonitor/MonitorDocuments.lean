import InglMonitor.MonitorAnnounced

/-! What a run leaves alone in the database. The writes of a run add up to one update of one document
in each collection, and the server refuses those whose document has another identity. -/

open Borsh DocumentStore Transition

namespace InglMonitor

variable {env : Env}

/-- The recorded writes to a collection, applied in their order. -/
def replay (env : Env) (written : List Task) (collection : CollectionName) (docs : List InglState) :
    List InglState :=
  (written.filter fun task => task.broadcast.collection = collection).foldl
    (fun docs task => updateOne (isInglState env) task.payload.set docs) docs

theorem replay_append_singleton (written : List Task) (task : Task) (collection : CollectionName)
    (docs : List InglState) :
    replay env (written ++ [task]) collection docs =
      if task.broadcast.collection = collection then
        updateOne (isInglState env) task.payload.set (replay env written collection docs)
      else replay env written collection docs := by
  rw [replay, List.filter_append, List.foldl_append]
  by_cases h : task.broadcast.collection = collection
  · rw [if_pos h, List.filter_cons_of_pos (by simpa using h)]
    rfl
  · rw [if_neg h, List.filter_cons_of_neg (by simpa using h)]
    rfl

@[simp] theorem Task.payload_objectId (task : Task) :
    task.payload.objectId = task.inglDbState.objectId := by
  unfold payload
  cases task.broadcast with
  | finalizedProposal date => cases date <;> rfl
  | _ => rfl

/-- An accepted write is an update of its collection, whose match has the identity of the payload. -/
theorem update_eq_some {task : Task} {db db' : Db} (h : task.update env db = some db') :
    (∀ collection, db' collection =
      if task.broadcast.collection = collection then
        updateOne (isInglState env) task.payload.set (db collection)
      else db collection) ∧
    ∀ doc, findOne (isInglState env) (db task.broadcast.collection) = some doc →
      doc.objectId = task.inglDbState.objectId := by
  rw [Task.update, update] at h
  cases hfind : findOne (isInglState env) (db task.broadcast.collection) with
  | none =>
      rw [hfind] at h
      cases h
      refine ⟨fun collection => ?_, fun doc hdoc => by cases hdoc⟩
      split
      · rename_i hcollection
        subst hcollection
        exact (updateOne_of_not_matching fun doc hdoc => by
          simpa using List.find?_eq_none.mp hfind doc hdoc).symm
      · rfl
  | some doc =>
      simp only [hfind] at h
      split at h
      · rename_i hid
        cases h
        refine ⟨fun collection => ?_, fun doc' hdoc' => ?_⟩
        · split
          · rename_i hcollection
            subst hcollection
            exact Function.update_self ..
          · rename_i hcollection
            exact Function.update_of_ne (Ne.symm hcollection) ..
        · cases hdoc'
          exact hid.trans (Task.payload_objectId task)
      · cases h

theorem isInglState_set {task : Task} (hmatch : isInglState env task.inglDbState = true)
    (doc : InglState) : isInglState env (task.payload.set doc) = true := by
  simp only [isInglState, decide_eq_true_eq, InglState.set, Task.payload_dataId] at hmatch ⊢
  rw [hmatch, Stored.set_value]

/-- A document after writes that are applied in their order. -/
def overwritten (written : List Task) (doc : InglState) : InglState :=
  written.foldl (fun doc task => task.payload.set doc) doc

theorem overwritten_objectId (written : List Task) (doc : InglState) :
    (overwritten written doc).objectId = doc.objectId := by
  unfold overwritten
  induction written generalizing doc with
  | nil => rfl
  | cons task written ih => exact ih _

theorem overwritten_dataId {written : List Task}
    (hmatch : ∀ task ∈ written, isInglState env task.inglDbState = true) {doc : InglState}
    (hdoc : isInglState env doc = true) : (overwritten written doc).dataId = doc.dataId := by
  unfold overwritten
  induction written generalizing doc with
  | nil => rfl
  | cons task written ih =>
      obtain ⟨htask, hwritten⟩ := List.forall_mem_cons.mp hmatch
      have hset := isInglState_set htask doc
      rw [List.foldl_cons, ih hwritten hset]
      simp only [isInglState, decide_eq_true_eq] at hset hdoc
      rw [hset, hdoc]

/-- The writes to one collection. -/
abbrev writtenTo (written : List Task) (collection : CollectionName) : List Task :=
  written.filter fun task => task.broadcast.collection = collection

theorem replay_eq_updateOne {written : List Task}
    (hmatch : ∀ task ∈ written, isInglState env task.inglDbState = true)
    (collection : CollectionName) (docs : List InglState) :
    replay env written collection docs =
      updateOne (isInglState env) (overwritten (writtenTo written collection)) docs :=
  foldl_updateOne
    (fun task htask doc _ => isInglState_set (hmatch task (List.mem_filter.mp htask).1) doc) docs

/-- The database is the replay of the record, and what was written had the identity of its match. -/
structure Replayed (env : Env) (db : Db) (w : World) : Prop where
  sound : Sound env w
  matching : ∀ task ∈ w.written, isInglState env task.inglDbState = true
  replay : ∀ collection, w.db collection = replay env w.written collection (db collection)
  identity : ∀ task ∈ w.written, ∀ doc,
    findOne (isInglState env) (db task.broadcast.collection) = some doc →
    doc.objectId = task.inglDbState.objectId

theorem Replayed.start (chain : Chain) (db : Db) : Replayed env db (World.start chain db) where
  sound := .start chain db
  matching _ htask := nomatch htask
  replay _ := rfl
  identity _ htask := nomatch htask

/-- The match of a collection is the initial one, overwritten. -/
theorem Replayed.findOne {db : Db} {w : World} (h : Replayed env db w) (collection : CollectionName) :
    DocumentStore.findOne (isInglState env) (w.db collection) =
      (DocumentStore.findOne (isInglState env) (db collection)).map
        (overwritten (writtenTo w.written collection)) := by
  rw [h.replay, replay_eq_updateOne h.matching]
  refine findOne_updateOne (fun doc hdoc => ?_) _
  have hid : (overwritten (writtenTo w.written collection) doc).dataId = doc.dataId :=
    overwritten_dataId (fun task htask => h.matching task (List.mem_filter.mp htask).1) hdoc
  rw [isInglState, hid]
  exact hdoc

/-- A step that writes appends its task to the record; the others leave both alone. -/
theorem db_of_step {w w' : World} {e : Event} (hstep : step env w e = some w') :
    (w'.db = w.db ∧ w'.written = w.written) ∨
      ∃ task ∈ w.tasks, task.update env w.db = some w'.db ∧ w'.written = w.written ++ [task] := by
  cases step_effect hstep with
  | writes hget _ _ hupdate => exact .inr ⟨_, List.mem_of_getElem? hget, hupdate, rfl⟩
  | _ => exact .inl ⟨rfl, rfl⟩

theorem Replayed.keeps {db : Db} {w w' : World} {e : Event} (h : Replayed env db w)
    (hstep : step env w e = some w') : Replayed env db w' := by
  have hsound := h.sound.keeps hstep
  rcases db_of_step hstep with ⟨hdb, hwritten⟩ | ⟨task, htask, hupdate, hwritten⟩
  · refine ⟨hsound, ?_, ?_, ?_⟩
    · rw [hwritten]; exact h.matching
    · rw [hdb, hwritten]; exact h.replay
    · rw [hwritten]; exact h.identity
  · obtain ⟨hreplay, hidentity⟩ := update_eq_some hupdate
    refine ⟨hsound, ?_, fun collection => ?_, ?_⟩
    · rw [hwritten, List.forall_mem_append, List.forall_mem_singleton]
      exact ⟨h.matching, h.sound.copies.tasks task htask⟩
    · rw [hwritten, replay_append_singleton, hreplay, h.replay]
    · rw [hwritten, List.forall_mem_append, List.forall_mem_singleton]
      refine ⟨h.identity, fun doc hdoc => ?_⟩
      -- the match has kept the identity it had at the start
      have hfind := h.findOne task.broadcast.collection
      rw [hdoc, Option.map_some] at hfind
      rw [← hidentity _ hfind, overwritten_objectId]

theorem replayed_run {chain : Chain} {db : Db} {es : List Event} {w : World}
    (hrun : run (step env) (World.start chain db) es = some w) : Replayed env db w :=
  run_invariant _ (fun _ _ _ h hstep => h.keeps hstep) (.start chain db) hrun

/-- **Documents.** Whatever the order of the replies, the collections of a run are the initial ones
with the recorded writes applied to the first match: identities, numbers and order of documents stay,
every other document is untouched, and a write only took effect where the match in its collection has
the identity of the document that the tick had read. -/
theorem documents_kept {chain : Chain} {db : Db} {es : List Event} {w : World}
    (hrun : run (step env) (World.start chain db) es = some w) (collection : CollectionName) :
    w.db collection = updateOne (isInglState env) (overwritten (writtenTo w.written collection))
        (db collection) ∧
      (w.db collection).map (fun doc => (doc.objectId, doc.dataId)) =
        (db collection).map (fun doc => (doc.objectId, doc.dataId)) ∧
      (∀ i, (db collection).findIdx? (isInglState env) ≠ some i →
        (w.db collection)[i]? = (db collection)[i]?) ∧
      ∀ task ∈ writtenTo w.written collection, ∀ doc,
        findOne (isInglState env) (db collection) = some doc →
        doc.objectId = task.inglDbState.objectId := by
  have h := replayed_run hrun
  have hdb := (h.replay collection).trans (replay_eq_updateOne h.matching collection _)
  refine ⟨hdb, ?_, ?_, ?_⟩
  · rw [hdb]
    refine map_updateOne (fun doc hdoc => Prod.ext (overwritten_objectId _ doc) ?_) _
    exact overwritten_dataId (fun task htask => h.matching task (List.mem_filter.mp htask).1) hdoc
  · intro i hi
    rw [hdb]
    exact getElem?_updateOne hi
  · intro task htask doc hdoc
    obtain ⟨hwritten, hcollection⟩ := List.mem_filter.mp htask
    have hcollection : task.broadcast.collection = collection := of_decide_eq_true hcollection
    subst hcollection
    exact h.identity task hwritten doc hdoc

/-- The vote account of numeration 7 is recorded on devnet, among the documents of others. -/
theorem devnet_documents_kept :
    ∃ w, run (step devnetEnv)
        (World.start (devnetChain (some devnetVoteData) none) fun
          | .inglState => [{ devnetState .null with dataId := .absent }, devnetState .absent]
          | .betaUsers => [devnetState .null])
        (tickEvents ++ [.task 0 .resolved, .task 0 .resolved]) = some w ∧
      (w.db .inglState)[1]? = some { devnetState .absent with voteAccountKey := .value devnetKey } ∧
      (w.db .inglState)[0]? = some { devnetState .null with dataId := .absent } := by
  have hrun : (run (step devnetEnv)
      (World.start (devnetChain (some devnetVoteData) none) fun
        | .inglState => [{ devnetState .null with dataId := .absent }, devnetState .absent]
        | .betaUsers => [devnetState .null])
      (tickEvents ++ [.task 0 .resolved, .task 0 .resolved])).map (fun w => (w.db .inglState)[1]?) =
      some (some { devnetState .absent with voteAccountKey := .value devnetKey }) := by decide
  obtain ⟨w, hrun, hdoc⟩ := Option.map_eq_some_iff.mp hrun
  exact ⟨w, hrun, hdoc, (documents_kept hrun .inglState).2.2.1 0 (by decide)⟩

/-! ### The notices that are recorded nowhere -/

/-- Every copy of the document, also in the record, has the identity of the initial one. -/
structure SameIdentity (env : Env) (db : Db) (w : World) : Prop where
  replayed : Replayed env db w
  copies : Everywhere env
    (fun doc => ∃ first, getDbState env db = some first ∧ doc.objectId = first.objectId) w
  written : ∀ task ∈ w.written, ∃ first, getDbState env db = some first ∧
    task.inglDbState.objectId = first.objectId

theorem SameIdentity.start (chain : Chain) (db : Db) : SameIdentity env db (World.start chain db) where
  replayed := .start chain db
  copies := .start fun doc hdoc => ⟨doc, hdoc, rfl⟩
  written _ htask := nomatch htask

theorem SameIdentity.keeps {db : Db} {w w' : World} {e : Event} (h : SameIdentity env db w)
    (hstep : step env w e = some w') : SameIdentity env db w' where
  replayed := h.replayed.keeps hstep
  copies := h.copies.keeps hstep fun doc hdoc => by
    obtain ⟨first, hfirst, rfl⟩ :=
      Option.map_eq_some_iff.mp (((h.replayed.keeps hstep).findOne .inglState).symm.trans hdoc)
    exact ⟨first, hfirst, overwritten_objectId _ first⟩
  written task htask := by
    rcases mem_written_of_step hstep htask with htask | htask
    · exact h.written task htask
    · exact h.copies.tasks task htask

/-- **Lost notices.** A finalization is written to the collection of the users. Unless a user record
carries the identity of the state document, no run ever changes that collection, and no write to it is
accepted where it has a match. -/
theorem betaUsers_kept {chain : Chain} {db : Db} {es : List Event} {w : World}
    (hids : ∀ state user, getDbState env db = some state →
      findOne (isInglState env) (db .betaUsers) = some user → state.objectId ≠ user.objectId)
    (hrun : run (step env) (World.start chain db) es = some w) :
    w.db .betaUsers = db .betaUsers ∧
      ∀ task ∈ w.written, task.broadcast.collection = .betaUsers →
        findOne (isInglState env) (db .betaUsers) = none := by
  have h : SameIdentity env db w :=
    run_invariant _ (fun _ _ _ h hstep => h.keeps hstep) (.start chain db) hrun
  have hnone (task : Task) (htask : task ∈ w.written) (hcollection : task.broadcast.collection = .betaUsers) :
      findOne (isInglState env) (db .betaUsers) = none := by
    refine Option.eq_none_iff_forall_not_mem.mpr fun user huser => ?_
    obtain ⟨state, hstate, hid⟩ := h.written task htask
    have hid' := h.replayed.identity task htask user (by rw [hcollection]; exact huser)
    exact hids state user hstate huser (hid.symm.trans hid'.symm)
  refine ⟨?_, hnone⟩
  rw [(documents_kept hrun .betaUsers).1]
  cases hwritten : writtenTo w.written .betaUsers with
  | nil => exact updateOne_id _
  | cons task written =>
      have htask : task ∈ writtenTo w.written .betaUsers := hwritten ▸ List.mem_cons_self
      obtain ⟨htask, hcollection⟩ := List.mem_filter.mp htask
      have hfind := hnone task htask (of_decide_eq_true hcollection)
      exact updateOne_of_not_matching fun doc hdoc => by
        simpa using List.find?_eq_none.mp hfind doc hdoc

/-- A database in which a user record matches too. -/
def devnetUsersDb : Db
  | .inglState => [devnetState .absent]
  | .betaUsers => [{ devnetState .absent with objectId := "63a1d2f0c4e8b7a5d9f00002" }]

/-- A finalization is sent on devnet, and its write is refused. -/
theorem devnet_betaUsers_kept :
    ∃ w, run (step devnetEnv)
        (World.start (devnetChain none (some (devnetProposal [1, 64, 226, 1, 99]))) devnetUsersDb)
        (tickEvents ++ [.task 1 .resolved, .task 1 .rejected]) = some w ∧
      w.sent = [.finalizedProposal (some 1661067840)] ∧
      w.db .betaUsers = devnetUsersDb .betaUsers := by
  have hrun : (run (step devnetEnv)
      (World.start (devnetChain none (some (devnetProposal [1, 64, 226, 1, 99]))) devnetUsersDb)
      (tickEvents ++ [.task 1 .resolved, .task 1 .rejected])).map (fun w => w.sent) =
      some [.finalizedProposal (some 1661067840)] := by decide
  obtain ⟨w, hrun, hsent⟩ := Option.map_eq_some_iff.mp hrun
  refine ⟨w, hrun, hsent, (betaUsers_kept (fun state user hstate huser => ?_) hrun).1⟩
  have hstate' : getDbState devnetEnv devnetUsersDb = some (devnetState .absent) := by decide
  have huser' : findOne (isInglState devnetEnv) (devnetUsersDb .betaUsers) =
      some { devnetState .absent with objectId := "63a1d2f0c4e8b7a5d9f00002" } := by decide
  rw [← Option.some.inj (hstate'.symm.trans hstate), ← Option.some.inj (huser'.symm.trans huser)]
  decide

end InglMonitor
