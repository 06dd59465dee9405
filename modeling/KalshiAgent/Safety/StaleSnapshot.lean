import KalshiAgent.Safety.Resync

/-! One reconcile and one fill poll, interleaved at their awaits. The reconciler's lock is shared
with the executor but not with the ingestor, so a poll may book fills between the snapshot of the
server's positions and the moment the snapshot is written over the local ones. -/

namespace KalshiAgent
open Execution

inductive Reconciling
  | waiting
  | fetched (remote : List KalshiPosition)
  -- `none` where an exception left it
  | ended (result : Option ReconcileResult)

inductive Polling
  | waiting
  -- awaits the next page
  | paging (applied : ℕ) (maxTsSeen : ℤ)
  -- inside the session of a page, which awaits the notices of the fills it books
  | booking (fills : List Arrival) (cursor : Bool) (applied : ℕ) (maxTsSeen : ℤ)
  | ended (result : Except IngestError ℕ)

structure Crossing where
  db : Db
  highWaterTs : Option ℤ
  reconciling : Reconciling
  polling : Polling
  server : KeyedTable KalshiPosition.ticker
  -- the server at the snapshot, and its trades since
  snapshot : KeyedTable KalshiPosition.ticker
  traded : List TimedFill
  -- the fills stored when the snapshot was written, and the fills booked since
  storedAtWrite : List FillIdentity
  booked : List Arrival

def Crossing.start (db : Db) (highWaterTs : Option ℤ) (server : KeyedTable KalshiPosition.ticker) :
    Crossing :=
  ⟨db, highWaterTs, .waiting, .waiting, server, server, [], [], []⟩

inductive CrossingStep
  | trade (fill : TimedFill) (realizedPnlDollars : Option DecimalText)
  | snapshot
  | write
  | poll
  | page (fills : List Arrival) (cursor : Bool)
  | commit

def tradeOn (server : KeyedTable KalshiPosition.ticker) (fill : KalshiFill)
    (realizedPnlDollars : Option DecimalText) : KeyedTable KalshiPosition.ticker :=
  server.put ⟨fill.ticker, remoteSigned server.rows fill.ticker + fill.traded, realizedPnlDollars⟩

def crossingStep (env : IngestEnv) (source : String) (s : Crossing) : CrossingStep → Option Crossing
  | .trade fill realizedPnlDollars =>
    some { s with
      server := tradeOn s.server fill.toKalshiFill realizedPnlDollars
      traded := s.traded ++ [fill] }
  | .snapshot =>
    match s.reconciling with
    | .waiting =>
      some { s with reconciling := .fetched s.server.rows, snapshot := s.server, traded := [] }
    | _ => none
  | .write =>
    match s.reconciling, s.polling with
    -- the open session of the page holds the database's write lock: the reconciler's commit raises
    | .fetched _, .booking .. =>
      if env.discord then some { s with reconciling := .ended none } else none
    | .fetched remote, _ =>
      match reconcileInner source s.db (.ok remote) with
      | .error _ => some { s with reconciling := .ended none }
      | .ok (db, result) =>
        some { s with
          db := db
          reconciling := .ended (some result)
          storedAtWrite := db.identities
          booked := [] }
    | _, _ => none
  | .poll =>
    match s.polling with
    | .waiting => some { s with polling := .paging 0 (s.highWaterTs.getD 0) }
    | _ => none
  | .page fills cursor =>
    match s.polling with
    | .paging applied maxTsSeen =>
      if ∀ a ∈ fills, 0 ≤ a.fill.count then
        some { s with polling := .booking fills cursor applied maxTsSeen }
      else none
    | _ => none
  | .commit =>
    match s.polling with
    | .booking fills cursor applied maxTsSeen =>
      match ingestPage env ⟨s.db, applied, maxTsSeen⟩ fills with
      | .error e => some { s with polling := .ended (.error (.fill e)) }
      | .ok st =>
        let s' := { s with db := st.db, booked := s.booked ++ fresh s.db.identities fills }
        if fills ≠ [] ∧ cursor = true then
          some { s' with polling := .paging st.applied st.maxTsSeen }
        else
          some { s' with
            polling := .ended (.ok st.applied)
            highWaterTs :=
              if s.highWaterTs.getD 0 < st.maxTsSeen then some (st.maxTsSeen + 1)
              else s.highWaterTs }
    | _ => none

def Reconciling.succeeded : Reconciling → Bool
  | .ended (some (.ok _)) => true
  | _ => false

def Polling.succeeded : Polling → Bool
  | .ended (.ok _) => true
  | _ => false

def BothFinished (s : Crossing) : Prop :=
  s.reconciling.succeeded = true ∧ s.polling.succeeded = true

/-- When the snapshot was written, every trade since it had been applied. -/
def AppliedBeforeWrite (s : Crossing) : Prop := ∀ f ∈ s.traded, f.identity ∈ s.storedAtWrite

instance (s : Crossing) : Decidable (BothFinished s) := inferInstanceAs (Decidable (_ ∧ _))

instance (s : Crossing) : Decidable (AppliedBeforeWrite s) :=
  inferInstanceAs (Decidable (∀ f ∈ s.traded, _))

def MatchesServer (s : Crossing) : Prop :=
  ∀ t, s.db.signed t = remoteSigned s.server.rows t

/-- The condition: the fills booked after the write, replayed on the snapshot, move every ticker
by what the trades since the snapshot moved it. -/
def LaterFillsMakeUp (s : Crossing) : Prop :=
  ∀ t, replay t (remoteSigned s.snapshot.rows t) s.booked =
    remoteSigned s.snapshot.rows t + netTraded t (s.traded.map TimedFill.toKalshiFill)

theorem remoteSigned_rows (server : KeyedTable KalshiPosition.ticker) (t : Ticker) :
    remoteSigned server.rows t = ((server.find t).map KalshiPosition.position).getD 0 := by
  rw [remoteSigned, KeyedTable.ofList, KeyedTable.find_putAll _ server.nodup, KeyedTable.find_empty,
    Option.or_none]
  rfl

theorem netTraded_append (t : Ticker) (fills fills' : List KalshiFill) :
    netTraded t (fills ++ fills') = netTraded t fills + netTraded t fills' := by
  simp [netTraded]

theorem netTraded_singleton (t : Ticker) (fill : KalshiFill) :
    netTraded t [fill] = if fill.ticker = t then fill.traded else 0 := by
  by_cases ht : fill.ticker = t <;> simp [netTraded, ht]

theorem replay_append (t : Ticker) (q : ℤ) (as bs : List Arrival) :
    replay t q (as ++ bs) = replay t (replay t q as) bs := List.foldl_append

theorem remoteSigned_tradeOn (server : KeyedTable KalshiPosition.ticker) (fill : KalshiFill)
    (realizedPnlDollars : Option DecimalText) (t : Ticker) :
    remoteSigned (tradeOn server fill realizedPnlDollars).rows t =
      remoteSigned server.rows t + netTraded t [fill] := by
  rw [remoteSigned_rows, tradeOn, KeyedTable.find_put, netTraded_singleton]
  by_cases ht : fill.ticker = t
  · simp [ht]
  · rw [if_neg ht, if_neg ht, add_zero, remoteSigned_rows]

structure CrossingInvariant (s : Crossing) : Prop where
  fetched : ∀ remote, s.reconciling = .fetched remote → remote = s.snapshot.rows
  moved : ∀ t, remoteSigned s.server.rows t =
    remoteSigned s.snapshot.rows t + netTraded t (s.traded.map TimedFill.toKalshiFill)
  counts : ∀ fills cursor applied maxTsSeen,
    s.polling = .booking fills cursor applied maxTsSeen → ∀ a ∈ fills, 0 ≤ a.fill.count
  rows : ∀ result, s.reconciling = .ended (some result) → ∀ p ∈ s.db.positions.rows, 0 ≤ p.count
  written : ∀ result, s.reconciling = .ended (some result) →
    ∀ t, s.db.signed t = replay t (remoteSigned s.snapshot.rows t) s.booked

section Steps
variable {env : IngestEnv} {source : String} {s s' : Crossing}

theorem write_cases (h : crossingStep env source s .write = some s') :
    ∃ remote, s.reconciling = .fetched remote ∧
      (s' = { s with reconciling := .ended none } ∨
        ∃ db ds, reconcileInner source s.db (.ok remote) = .ok (db, .ok ds) ∧
          s' = { s with
            db := db
            reconciling := .ended (some (.ok ds))
            storedAtWrite := db.identities
            booked := [] }) := by
  unfold crossingStep at h
  dsimp only at h
  split at h
  · rename_i remote _ _ _ _ hfetched _
    split_ifs at h
    exact ⟨remote, hfetched, .inl (Option.some.inj h).symm⟩
  · rename_i remote hfetched _
    refine ⟨remote, hfetched, ?_⟩
    cases hrec : reconcileInner source s.db (.ok remote) with
    | error e =>
      rw [hrec] at h
      exact .inl (Option.some.inj h).symm
    | ok r =>
      obtain ⟨db, result⟩ := r
      obtain ⟨ds, rfl⟩ := reconcile_result hrec
      rw [hrec] at h
      exact .inr ⟨db, ds, rfl, (Option.some.inj h).symm⟩
  · cases h

theorem commit_cases (h : crossingStep env source s .commit = some s') :
    ∃ fills cursor applied maxTsSeen, s.polling = .booking fills cursor applied maxTsSeen ∧
      ((∃ e, s' = { s with polling := .ended (.error e) }) ∨
        ∃ st polling mark, ingestPage env ⟨s.db, applied, maxTsSeen⟩ fills = .ok st ∧
          (∀ fills' cursor' applied' maxTsSeen',
            polling ≠ .booking fills' cursor' applied' maxTsSeen') ∧
          s' = { s with
            db := st.db
            booked := s.booked ++ fresh s.db.identities fills
            polling := polling
            highWaterTs := mark }) := by
  unfold crossingStep at h
  dsimp only at h
  split at h
  · rename_i fills cursor applied maxTsSeen hbooking
    refine ⟨fills, cursor, applied, maxTsSeen, hbooking, ?_⟩
    cases hpage : ingestPage env ⟨s.db, applied, maxTsSeen⟩ fills with
    | error e =>
      rw [hpage] at h
      exact .inl ⟨.fill e, (Option.some.inj h).symm⟩
    | ok st =>
      rw [hpage] at h
      dsimp only at h
      split_ifs at h <;>
        exact .inr ⟨st, _, _, rfl, by simp, (Option.some.inj h).symm⟩
  · cases h

def pageSteps : ListFills → List CrossingStep
  | .failed _ => []
  | .last fills => [.page fills false, .commit]
  | .page [] _ => [.page [] true, .commit]
  | .page fills rest => .page fills true :: .commit :: pageSteps rest

theorem exec_page {fills : List Arrival} {cursor : Bool} {applied : ℕ} {maxTsSeen : ℤ}
    {st : PollState} (rest : List CrossingStep) (hpaging : s.polling = .paging applied maxTsSeen)
    (hcounts : ∀ a ∈ fills, 0 ≤ a.fill.count)
    (hpage : ingestPage env ⟨s.db, applied, maxTsSeen⟩ fills = .ok st) :
    exec (crossingStep env source) s (.page fills cursor :: .commit :: rest) =
      exec (crossingStep env source)
        { s with
          db := st.db
          booked := s.booked ++ fresh s.db.identities fills
          polling :=
            if fills ≠ [] ∧ cursor = true then .paging st.applied st.maxTsSeen
            else .ended (.ok st.applied)
          highWaterTs :=
            if fills ≠ [] ∧ cursor = true then s.highWaterTs
            else if s.highWaterTs.getD 0 < st.maxTsSeen then some (st.maxTsSeen + 1)
            else s.highWaterTs } rest := by
  rw [exec, crossingStep, hpaging]
  dsimp only
  rw [if_pos hcounts, Option.bind_some, exec, crossingStep]
  dsimp only
  rw [hpage]
  dsimp only
  split_ifs <;> rfl

theorem exec_pageSteps {script : ListFills} {applied : ℕ} {maxTsSeen : ℤ} {st : PollState}
    (hfail : script.failure = none) (hcounts : ∀ a ∈ script.returned, 0 ≤ a.fill.count)
    (hpaging : s.polling = .paging applied maxTsSeen)
    (hloop : fetchLoop env ⟨s.db, applied, maxTsSeen⟩ script = (st, none)) :
    ∃ t, exec (crossingStep env source) s (pageSteps script) = some t ∧ t.db = st.db ∧
      t.polling = .ended (.ok st.applied) ∧
      t.highWaterTs = if s.highWaterTs.getD 0 < st.maxTsSeen then some (st.maxTsSeen + 1)
        else s.highWaterTs := by
  induction script generalizing s applied maxTsSeen with
  | failed e => cases hfail
  | last fills =>
    rw [fetchLoop] at hloop
    cases hpage : ingestPage env ⟨s.db, applied, maxTsSeen⟩ fills with
    | error e => simp [hpage] at hloop
    | ok st' =>
      rw [hpage] at hloop
      cases hloop
      rw [ListFills.returned] at hcounts
      rw [pageSteps, exec_page [] hpaging hcounts hpage]
      exact ⟨_, rfl, by simp⟩
  | page fills rest ih =>
    cases fills with
    | nil =>
      cases hloop
      rw [ListFills.returned] at hcounts
      rw [pageSteps, exec_page [] hpaging hcounts rfl]
      exact ⟨_, rfl, by simp⟩
    | cons a as =>
      have hne : a :: as ≠ [] := List.cons_ne_nil a as
      simp only [fetchLoop] at hloop
      simp only [ListFills.returned] at hcounts
      simp only [ListFills.failure] at hfail
      simp only [pageSteps]
      cases hpage : ingestPage env ⟨s.db, applied, maxTsSeen⟩ (a :: as) with
      | error e => simp [hpage] at hloop
      | ok st' =>
        rw [hpage] at hloop
        rw [exec_page _ hpaging (fun b hb => hcounts b (List.mem_append_left _ hb)) hpage]
        simp only [hne, ne_eq, not_false_eq_true, and_self, if_true]
        exact ih hfail (fun b hb => hcounts b (List.mem_append_right _ hb)) rfl hloop

/-- A poll that nothing interrupts does what `_fetch_and_apply` does in one piece. -/
theorem exec_poll {script : ListFills} {n : ℕ} (hfail : script.failure = none)
    (hcounts : ∀ a ∈ script.returned, 0 ≤ a.fill.count) (hwaiting : s.polling = .waiting)
    (hret : (fetchAndApply env s.db s.highWaterTs (fun _ => script)).result = .ok n) :
    ∃ t, exec (crossingStep env source) s (.poll :: pageSteps script) = some t ∧
      t.db = (fetchAndApply env s.db s.highWaterTs (fun _ => script)).db ∧
      t.polling = .ended (fetchAndApply env s.db s.highWaterTs (fun _ => script)).result ∧
      t.highWaterTs = (fetchAndApply env s.db s.highWaterTs (fun _ => script)).highWaterTs := by
  unfold fetchAndApply at hret ⊢
  dsimp only at hret ⊢
  cases hloop : fetchLoop env ⟨s.db, 0, s.highWaterTs.getD 0⟩ script with
  | mk st error =>
    cases error with
    | some e => simp [hloop] at hret
    | none =>
      rw [exec, crossingStep, hwaiting]
      exact exec_pageSteps hfail hcounts rfl hloop

theorem CrossingInvariant.trade (hI : CrossingInvariant s) (fill : TimedFill)
    (realizedPnlDollars : Option DecimalText) :
    CrossingInvariant { s with
      server := tradeOn s.server fill.toKalshiFill realizedPnlDollars
      traded := s.traded ++ [fill] } where
  fetched := hI.fetched
  moved t := by
    rw [remoteSigned_tradeOn, hI.moved, List.map_append, netTraded_append, add_assoc]
    rfl
  counts := hI.counts
  rows := hI.rows
  written := hI.written

theorem CrossingInvariant.write (hI : CrossingInvariant s)
    (h : crossingStep env source s .write = some s') : CrossingInvariant s' := by
  obtain ⟨remote, hfetched, rfl | ⟨db, ds, hrec, rfl⟩⟩ := write_cases h
  · exact ⟨by simp, hI.moved, hI.counts, by simp, by simp⟩
  · obtain rfl := hI.fetched remote hfetched
    refine ⟨by simp, hI.moved, hI.counts, ?_, ?_⟩
    · intro result _
      exact reconcile_count_nonneg hrec
    · intro result _ t
      exact reconcile_signed hrec t

theorem CrossingInvariant.commit (hI : CrossingInvariant s)
    (h : crossingStep env source s .commit = some s') : CrossingInvariant s' := by
  obtain ⟨fills, cursor, applied, maxTsSeen, hbooking, ⟨e, rfl⟩ |
    ⟨st, polling, mark, hpage, hpolling, rfl⟩⟩ := commit_cases h
  · exact ⟨hI.fetched, hI.moved, by simp, hI.rows, hI.written⟩
  · obtain ⟨db', hrun, hbooked, _⟩ := ingestPage_books rfl hpage
    have hcounts := hI.counts fills cursor applied maxTsSeen hbooking
    have hsame : st.db.positions = db'.positions := congrArg Prod.snd hbooked
    refine ⟨hI.fetched, hI.moved, ?_, ?_, ?_⟩
    · intro fills' cursor' applied' maxTsSeen' heq
      exact absurd heq (hpolling fills' cursor' applied' maxTsSeen')
    · intro result hended p hp
      refine (applyFills_signed hrun (hI.rows result hended) hcounts).1 p ?_
      rw [← hsame]
      exact hp
    · intro result hended t
      have hsigned := (applyFills_signed hrun (hI.rows result hended) hcounts).2 t
      change st.db.signed t = _
      rw [signed_of_booked hbooked, hsigned, hI.written result hended t, ← replay_append]

theorem CrossingInvariant.step {step : CrossingStep} (hI : CrossingInvariant s)
    (h : crossingStep env source s step = some s') : CrossingInvariant s' := by
  cases step with
  | trade fill realizedPnlDollars =>
    cases h
    exact hI.trade fill realizedPnlDollars
  | snapshot =>
    unfold crossingStep at h
    dsimp only at h
    split at h
    · cases h
      refine ⟨?_, ?_, hI.counts, by simp, by simp⟩
      · intro remote heq
        exact (Reconciling.fetched.inj heq).symm
      · intro t
        exact (add_zero _).symm
    · cases h
  | write => exact hI.write h
  | poll =>
    unfold crossingStep at h
    dsimp only at h
    split at h
    · cases h
      exact ⟨hI.fetched, hI.moved, by simp, hI.rows, hI.written⟩
    · cases h
  | page fills cursor =>
    unfold crossingStep at h
    dsimp only at h
    split at h
    · split_ifs at h with hcounts
      cases h
      refine ⟨hI.fetched, hI.moved, ?_, hI.rows, hI.written⟩
      intro fills' cursor' applied' maxTsSeen' heq
      cases heq
      exact hcounts
    · cases h
  | commit => exact hI.commit h

theorem matchesServer_iff (hI : CrossingInvariant s) (hs : BothFinished s) :
    MatchesServer s ↔ LaterFillsMakeUp s := by
  obtain ⟨result, hended⟩ : ∃ result, s.reconciling = .ended (some result) := by
    have hdone := hs.1
    unfold Reconciling.succeeded at hdone
    split at hdone
    · exact ⟨_, by assumption⟩
    · cases hdone
  refine forall_congr' (fun t => ?_)
  rw [hI.written result hended, hI.moved]

/-- Where nothing is booked after the write, the local positions miss the trades: they match only
where these cancel out on every ticker. -/
theorem matchesServer_iff_cancelOut (hI : CrossingInvariant s) (hs : BothFinished s)
    (hbooked : s.booked = []) :
    MatchesServer s ↔ ∀ t, netTraded t (s.traded.map TimedFill.toKalshiFill) = 0 := by
  rw [matchesServer_iff hI hs]
  refine forall_congr' (fun t => ?_)
  rw [hbooked]
  exact left_eq_add

theorem not_matchesServer_of_one (hI : CrossingInvariant s) (hs : BothFinished s)
    (hbooked : s.booked = []) {f : TimedFill} (htraded : s.traded = [f]) (hcount : 1 ≤ f.count) :
    ¬ MatchesServer s := by
  rw [matchesServer_iff_cancelOut hI hs hbooked, htraded]
  intro h
  have hticker := h f.ticker
  rw [List.map_singleton, netTraded_singleton, if_pos rfl] at hticker
  unfold KalshiFill.traded at hticker
  cases haction : f.action <;> cases hside : f.side <;>
    simp only [haction, hside, Side.sign] at hticker <;> omega

end Steps

theorem Crossing.start_invariant (db : Db) (highWaterTs : Option ℤ)
    (server : KeyedTable KalshiPosition.ticker) :
    CrossingInvariant (.start db highWaterTs server) where
  fetched := by simp [Crossing.start]
  moved t := (add_zero _).symm
  counts := by simp [Crossing.start]
  rows := by simp [Crossing.start]
  written := by simp [Crossing.start]

/-- In every interleaving the local positions end up equal to the server's exactly when the fills
booked after the write make up for the trades since the snapshot. -/
theorem crossing_matches_iff (env : IngestEnv) (source : String) (db : Db) (highWaterTs : Option ℤ)
    (server : KeyedTable KalshiPosition.ticker) (steps : List CrossingStep) :
    AllStates (crossingStep env source)
      (fun s => BothFinished s → (MatchesServer s ↔ LaterFillsMakeUp s))
      (.start db highWaterTs server) steps :=
  allStates_of_invariant (I := CrossingInvariant) (fun _ _ _ hI h => hI.step h)
    (fun _ hI => matchesServer_iff hI) (Crossing.start_invariant db highWaterTs server) steps

def boughtBetween : List CrossingStep :=
  [.snapshot, .trade (boughtAt "o1" 100200000) none, .poll,
    .page [(boughtAt "o1" 100200000).arrival] false, .commit, .write]

/-- The booked contract is overwritten, and no later fill brings it back. -/
theorem not_crossing_matches :
    ¬ AllStates (crossingStep plainEnv "scheduled")
      (fun s => BothFinished s → AppliedBeforeWrite s → MatchesServer s)
      (.start .empty none .empty) boughtBetween := by
  intro h
  have hrun : (exec (crossingStep plainEnv "scheduled") (.start .empty none .empty) boughtBetween).map
      (fun s => (decide (BothFinished s ∧ AppliedBeforeWrite s), s.db.signed "FOO",
        remoteSigned s.server.rows "FOO")) = some (true, 0, 1) := by
    decide +kernel
  obtain ⟨s, hs, hview⟩ := h.last_view hrun
  simp only [Prod.mk.injEq, decide_eq_true_eq] at hview
  obtain ⟨⟨hdone, happlied⟩, hlocal, hserver⟩ := hview
  have hfoo := hs hdone happlied "FOO"
  omega

end KalshiAgent
