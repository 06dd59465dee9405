import KalshiAgent.Fills.Booking
import KalshiAgent.Lib.Once

/-! Polls that overlap and pages that are rolled back. A fill that carries its time is known by its
identity tuple, so over all polls of a process each is booked once, where it is first committed. -/

namespace KalshiAgent

structure Ingestor where
  db : Db
  highWaterTs : Option ℤ

namespace Ingestor

def mark (env : IngestEnv) (s : Ingestor) : ℤ := s.highWaterTs.getD (loadHighWater env s.db)

def opening (env : IngestEnv) (s : Ingestor) : PollState := ⟨s.db, 0, s.mark env⟩

def poll (env : IngestEnv) (s : Ingestor) (script : ListFills) : Ingestor :=
  let fetched := catchUp env s.db s.highWaterTs (fun _ => script)
  ⟨fetched.db, fetched.highWaterTs⟩

def polls (env : IngestEnv) (s : Ingestor) (scripts : List ListFills) : Ingestor :=
  scripts.foldl (poll env) s

/-- The fills of the pages that commit, in the order of their commits. -/
def delivered (env : IngestEnv) (s : Ingestor) : List ListFills → List Arrival
  | [] => []
  | script :: scripts =>
    script.committed env (s.opening env) ++ delivered env (s.poll env script) scripts

end Ingestor

def ListFills.aborted (env : IngestEnv) (st : PollState) : ListFills → Option (PollState × List Arrival)
  | .failed _ => none
  | .last fills =>
    match ingestPage env st fills with
    | .error _ => some (st, fills)
    | .ok _ => none
  | .page [] _ => none
  | .page fills rest =>
    match ingestPage env st fills with
    | .error _ => some (st, fills)
    | .ok st' => rest.aborted env st'

def bookFill (rate : ℚ) (db : Db) (a : Arrival) : Except FillError Db :=
  match applyFill rate db a with
  | .error e => .error e
  | .ok (db', _) => .ok db'

theorem applyFills_eq_process (rate : ℚ) (db : Db) (as : List Arrival) :
    applyFills rate db as = Once.process (bookFill rate) db as := by
  induction as generalizing db with
  | nil => rfl
  | cons a as ih =>
    rw [applyFills, Once.process, bookFill]
    cases applyFill rate db a with
    | error e => rfl
    | ok r => exact ih r.1

theorem bookFill_skipsSeen (rate : ℚ) :
    Once.SkipsSeen (bookFill rate) Arrival.lookupIdentity Db.identities
      (fun a => a.fill.createdTime ≠ none) := by
  constructor
  · intro db a _ hseen
    rw [bookFill, applyFill, hasFill_iff_mem.mpr hseen]
    rfl
  · intro db a db' hdated hnew hbook
    unfold bookFill at hbook
    cases happ : applyFill rate db a with
    | error e => simp [happ] at hbook
    | ok r =>
      rw [happ] at hbook
      cases hbook
      rcases applyFill_view happ with ⟨hseen, _⟩ | ⟨_, hids, _⟩
      · exact absurd hseen hnew
      · rw [hids, lookupIdentity_eq_stored hdated]

theorem applyFills_append_ok {rate : ℚ} {db db' db'' : Db} {as bs : List Arrival}
    (has : applyFills rate db as = .ok db') (hbs : applyFills rate db' bs = .ok db'') :
    applyFills rate db (as ++ bs) = .ok db'' := by
  rw [applyFills_eq_process] at has hbs ⊢
  rw [Once.process_append, has]
  exact hbs

theorem applyFills_congr {rate : ℚ} {db₁ db₂ db₁' : Db} {as : List Arrival}
    (hbooked : db₁.booked = db₂.booked) (h : applyFills rate db₁ as = .ok db₁') :
    ∃ db₂', applyFills rate db₂ as = .ok db₂' ∧ db₁'.booked = db₂'.booked := by
  induction as generalizing db₁ db₂ with
  | nil =>
    cases h
    exact ⟨db₂, rfl, hbooked⟩
  | cons a as ih =>
    obtain ⟨db₁₁, δ, happ, hrest⟩ := applyFills_cons_ok.mp h
    obtain ⟨db₂₁, happ₂, hbooked₁⟩ := applyFill_congr hbooked happ
    obtain ⟨db₂', hrest₂, hend⟩ := ih hbooked₁ hrest
    exact ⟨db₂', applyFills_cons_ok.mpr ⟨db₂₁, δ, happ₂, hrest₂⟩, hend⟩

section Polls
variable {env : IngestEnv}

theorem poll_db (env : IngestEnv) (s : Ingestor) (script : ListFills) :
    (s.poll env script).db = (fetchLoop env (s.opening env) script).1.db :=
  fetchAndApply_db env s.db (some (s.mark env)) (fun _ => script)

theorem poll_books (env : IngestEnv) (s : Ingestor) (script : ListFills) :
    ∃ db, applyFills env.takerRate s.db (script.committed env (s.opening env)) = .ok db ∧
      (s.poll env script).db.booked = db.booked := by
  have hcommitted := fetchLoop_committed env (s.opening env) script
  obtain ⟨db, hbook, hbooked, _⟩ := @ingestPage_books env _ _ _ s.db rfl hcommitted
  rw [← poll_db env] at hbooked
  exact ⟨db, hbook, hbooked⟩

theorem polls_book (env : IngestEnv) (s : Ingestor) (scripts : List ListFills) :
    ∃ db, applyFills env.takerRate s.db (s.delivered env scripts) = .ok db ∧
      (s.polls env scripts).db.booked = db.booked := by
  induction scripts generalizing s with
  | nil => exact ⟨s.db, rfl, rfl⟩
  | cons script scripts ih =>
    obtain ⟨db₁, hbook₁, hbooked₁⟩ := poll_books env s script
    obtain ⟨db₂, hbook₂, hbooked₂⟩ := ih (s.poll env script)
    obtain ⟨db₂', hbook₂', hsame⟩ := applyFills_congr hbooked₁ hbook₂
    exact ⟨db₂', applyFills_append_ok hbook₁ hbook₂', hbooked₂.trans hsame⟩

theorem delivered_returned {s : Ingestor} {scripts : List ListFills} {a : Arrival}
    (h : a ∈ s.delivered env scripts) : ∃ script ∈ scripts, a ∈ script.returned := by
  induction scripts generalizing s with
  | nil => exact absurd h List.not_mem_nil
  | cons script scripts ih =>
    rcases List.mem_append.mp h with hfirst | hrest
    · exact ⟨script, List.mem_cons_self, mem_returned_of_committed hfirst⟩
    · obtain ⟨script', hscript', ha⟩ := ih hrest
      exact ⟨script', List.mem_cons_of_mem _ hscript', ha⟩

theorem fetchLoop_aborted {st st' : PollState} {script : ListFills} {fills : List Arrival}
    (h : script.aborted env st = some (st', fills)) :
    ∃ e, fetchLoop env st script = (st', some e) := by
  induction script generalizing st with
  | failed e => cases h
  | last page =>
    rw [ListFills.aborted] at h
    rw [fetchLoop]
    cases hpage : ingestPage env st page with
    | error e =>
      rw [hpage] at h
      cases h
      exact ⟨_, rfl⟩
    | ok st₁ => simp [hpage] at h
  | page page rest ih =>
    cases page with
    | nil => cases h
    | cons a as =>
      rw [ListFills.aborted] at h
      · rw [fetchLoop]
        · cases hpage : ingestPage env st (a :: as) with
          | error e =>
            rw [hpage] at h
            cases h
            exact ⟨_, rfl⟩
          | ok st₁ =>
            rw [hpage] at h
            exact ih h
        · exact List.cons_ne_nil a as
      · exact List.cons_ne_nil a as

theorem poll_aborted {s : Ingestor} {script : ListFills} {st : PollState} {fills : List Arrival}
    (h : script.aborted env (s.opening env) = some (st, fills)) :
    s.poll env script = ⟨st.db, some (s.mark env)⟩ := by
  obtain ⟨e, hloop⟩ := fetchLoop_aborted h
  have hloop' : fetchLoop env ⟨s.db, 0, (some (s.highWaterTs.getD (loadHighWater env s.db))).getD 0⟩
      script = (st, some e) := hloop
  unfold Ingestor.poll catchUp fetchAndApply
  dsimp only
  rw [hloop']
  rfl

end Polls

/-- Over any polls, each fill that carries its time is booked once, at its first committed
delivery; a page that raises leaves the tables and the mark as they were before it. -/
theorem polls_exactly_once (env : IngestEnv) (s : Ingestor) (scripts : List ListFills)
    (hdated : ∀ script ∈ scripts, ∀ a ∈ script.returned, a.fill.createdTime ≠ none) :
    let delivered := s.delivered env scripts
    let once := Once.firsts Arrival.lookupIdentity s.db.identities delivered
    (once.Sublist delivered ∧ (once.map Arrival.lookupIdentity).Nodup ∧
        ∀ a ∈ delivered, a.lookupIdentity ∈ s.db.identities ++ once.map Arrival.lookupIdentity) ∧
      (∃ db, applyFills env.takerRate s.db once = .ok db ∧
        (s.polls env scripts).db.booked = db.booked) ∧
      ∀ before script after, scripts = before ++ script :: after → ∀ st fills,
        script.aborted env ((s.polls env before).opening env) = some (st, fills) →
          (s.polls env before).poll env script = ⟨st.db, some ((s.polls env before).mark env)⟩ := by
  intro delivered once
  refine ⟨⟨Once.firsts_sublist _ _ _, Once.nodup_firsts _ _ _, ?_⟩, ?_,
    fun before script after _ st fills h => poll_aborted h⟩
  · exact fun a ha => Once.key_mem_firsts _ _ ha
  · obtain ⟨db, hbook, hbooked⟩ := polls_book env s scripts
    have hall : ∀ a ∈ delivered, a.fill.createdTime ≠ none := by
      intro a ha
      obtain ⟨script, hscript, hmem⟩ := delivered_returned ha
      exact hdated script hscript a hmem
    refine ⟨db, ?_, hbooked⟩
    rw [applyFills_eq_process] at hbook ⊢
    rw [Once.process_firsts (bookFill_skipsSeen env.takerRate) s.db hall]
    exact hbook

def unpriced : KalshiFill := { sweepFill "t2" (some 2000) with
  orderId := "o2", yesPriceDollars := none }

def firstBuy : Arrival := ⟨sweepFill "t1" (some 1000), 0, 0, 0⟩

theorem polls_exactly_once_overlap :
    let scripts : List ListFills :=
      [.page [firstBuy] (.last [firstBuy, ⟨unpriced, 0, 0, 0⟩]), .last [firstBuy, firstBuy]]
    let s : Ingestor := ⟨.empty, none⟩
    ∃ db, applyFills (7 / 100) .empty [firstBuy] = .ok db ∧
      (s.polls ⟨7 / 100, true, id⟩ scripts).db.booked = db.booked := by
  intro scripts s
  have hdated : ∀ script ∈ scripts, ∀ a ∈ script.returned, a.fill.createdTime ≠ none := by decide
  have honce := (polls_exactly_once ⟨7 / 100, true, id⟩ s scripts hdated).2.1
  have hfirst : Once.firsts Arrival.lookupIdentity s.db.identities
      (s.delivered ⟨7 / 100, true, id⟩ scripts) = [firstBuy] := by decide +kernel
  rwa [hfirst] at honce

end KalshiAgent
