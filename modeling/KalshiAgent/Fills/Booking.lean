import KalshiAgent.Fills.Ingestor
import KalshiAgent.Positions.Deliveries

/-! What a poll books. The abstract view of a poll is the list of fills it does not skip: their
identities are what the Fill table gains, and replaying them gives the signed positions. -/

namespace KalshiAgent

def Db.identities (db : Db) : List FillIdentity := db.fills.map Fill.identity

theorem hasFill_iff_mem {db : Db} {i : FillIdentity} : db.hasFill i = true ↔ i ∈ db.identities := by
  rw [Db.hasFill_iff, Db.identities, List.mem_map]

/-- The arrivals that are booked: the first of each identity that is not in `seen`. -/
def fresh (seen : List FillIdentity) : List Arrival → List Arrival
  | [] => []
  | a :: as =>
    if a.lookupIdentity ∈ seen then fresh seen as
    else a :: fresh (seen ++ [a.storedIdentity]) as

/-- A signed position after a list of fills, those of other tickers passed over. -/
def replay (t : Ticker) (q : ℤ) (as : List Arrival) : ℤ :=
  as.foldl (fun q a => if a.fill.ticker = t then signedTrade q a.fill else q) q

def realizedSeconds (rate : ℚ) (db : Db) : List Arrival → List ℤ
  | [] => []
  | a :: as =>
    match applyFill rate db a with
    | .error _ => []
    | .ok (db', realized) =>
      if realized = 0 then realizedSeconds rate db' as else a.second :: realizedSeconds rate db' as

theorem fresh_cons_seen {seen : List FillIdentity} {a : Arrival} (as : List Arrival)
    (h : a.lookupIdentity ∈ seen) : fresh seen (a :: as) = fresh seen as := if_pos h

theorem fresh_cons_new {seen : List FillIdentity} {a : Arrival} (as : List Arrival)
    (h : a.lookupIdentity ∉ seen) :
    fresh seen (a :: as) = a :: fresh (seen ++ [a.storedIdentity]) as := if_neg h

theorem mem_fresh {seen : List FillIdentity} {as : List Arrival} {a : Arrival} (ha : a ∈ as)
    (htime : a.fill.createdTime ≠ none) :
    a.lookupIdentity ∈ seen ∨ ∃ b ∈ fresh seen as, b.storedIdentity = a.lookupIdentity := by
  induction as generalizing seen with
  | nil => exact absurd ha List.not_mem_nil
  | cons b as ih =>
    by_cases hb : b.lookupIdentity ∈ seen
    · rw [fresh_cons_seen as hb]
      rcases List.mem_cons.mp ha with rfl | ha
      · exact .inl hb
      · exact ih ha
    · rw [fresh_cons_new as hb]
      rcases List.mem_cons.mp ha with rfl | ha
      · exact .inr ⟨a, List.mem_cons_self, (lookupIdentity_eq_stored htime).symm⟩
      · rcases @ih (seen ++ [b.storedIdentity]) ha with hmem | ⟨c, hc, hid⟩
        · rcases List.mem_append.mp hmem with hmem | hmem
          · exact .inl hmem
          · exact .inr ⟨b, List.mem_cons_self, (List.mem_singleton.mp hmem).symm⟩
        · exact .inr ⟨c, List.mem_cons_of_mem _ hc, hid⟩

theorem fresh_subset {seen : List FillIdentity} {as : List Arrival} {a : Arrival}
    (h : a ∈ fresh seen as) : a ∈ as := by
  induction as generalizing seen with
  | nil => exact h
  | cons b as ih =>
    rw [fresh] at h
    split at h
    · exact List.mem_cons_of_mem _ (ih h)
    · rcases List.mem_cons.mp h with rfl | h
      · exact List.mem_cons_self
      · exact List.mem_cons_of_mem _ (ih h)

theorem recordFill_signed {db : Db} {row : Fill} {pos : Position} (t : Ticker) :
    (db.recordFill row pos).signed t = if pos.marketTicker = t then pos.signed else db.signed t := by
  unfold Db.signed Db.recordFill
  dsimp only
  rw [KeyedTable.find_put]
  split_ifs <;> rfl

theorem fresh_eq_self {seen : List FillIdentity} {as : List Arrival}
    (hunseen : ∀ a ∈ as, a.lookupIdentity ∉ seen) (hdistinct : as.Pairwise DistinctIdentity) :
    fresh seen as = as := by
  induction as generalizing seen with
  | nil => rfl
  | cons a as ih =>
    have ha := hunseen a List.mem_cons_self
    rw [fresh_cons_new as ha, ih ?_ hdistinct.of_cons]
    intro b hb hmem
    rcases List.mem_append.mp hmem with hmem | hmem
    · exact hunseen b (List.mem_cons_of_mem _ hb) hmem
    · have hne : DistinctIdentity a b := List.rel_of_pairwise_cons hdistinct hb
      exact hne.1 (List.mem_singleton.mp hmem).symm

theorem replay_other {t : Ticker} {as : List Arrival} (h : ∀ a ∈ as, a.fill.ticker ≠ t) (q : ℤ) :
    replay t q as = q := by
  induction as with
  | nil => rfl
  | cons a as ih =>
    unfold replay
    rw [List.foldl_cons, if_neg (h a List.mem_cons_self)]
    exact ih (fun b hb => h b (List.mem_cons_of_mem _ hb))

section Booked
variable {rate : ℚ} {db db' : Db} {a : Arrival} {as : List Arrival}

/-- One call in the abstract view: a stored fill is skipped, a new one is traded. -/
theorem applyFill_view {δ : ℚ} (h : applyFill rate db a = .ok (db', δ)) :
    (a.lookupIdentity ∈ db.identities ∧ db' = db) ∨
      (a.lookupIdentity ∉ db.identities ∧ db'.identities = db.identities ++ [a.storedIdentity] ∧
        ((∀ p ∈ db.positions.rows, 0 ≤ p.count) → ∀ t, db'.signed t =
          if a.fill.ticker = t then signedTrade (db.signed t) a.fill else db.signed t)) := by
  rcases applyFill_cases h with ⟨hdup, rfl, _⟩ | ⟨hnew, price, moved, gross, _, htrade, _, rfl⟩
  · exact .inl ⟨hasFill_iff_mem.mp hdup, rfl⟩
  · right
    have hmoves := trade_moves htrade
    refine ⟨?_, by simp [Db.identities, Db.recordFill], fun hcounts t => ?_⟩
    · rw [← hasFill_iff_mem, hnew]
      exact Bool.false_ne_true
    · have hticker : (moved.accrue δ).marketTicker = a.fill.ticker := by
        rw [← positionFor_marketTicker db a.fill, ← hmoves.marketTicker]
        rfl
      rw [recordFill_signed, hticker]
      split_ifs with ht
      · rw [← ht, signed_eq_rowFor db a.fill.ticker a.fill.side, ← positionFor_eq_rowFor]
        exact hmoves.signed (positionFor_count_nonneg hcounts a.fill)
      · rfl

theorem applyFills_identities (h : applyFills rate db as = .ok db') :
    db'.identities = db.identities ++ (fresh db.identities as).map Arrival.storedIdentity := by
  induction as generalizing db with
  | nil =>
    cases h
    exact (List.append_nil _).symm
  | cons a as ih =>
    obtain ⟨db₁, δ, happ, hrest⟩ := applyFills_cons_ok.mp h
    rcases applyFill_view happ with ⟨hseen, rfl⟩ | ⟨hnew, hids, _⟩
    · rw [ih hrest, fresh_cons_seen as hseen]
    · rw [ih hrest, fresh_cons_new as hnew, hids, List.map_cons, List.append_assoc]
      rfl

theorem applyFills_hasFill_iff (h : applyFills rate db as = .ok db') (i : FillIdentity) :
    db'.hasFill i = true ↔
      db.hasFill i = true ∨ ∃ a ∈ fresh db.identities as, a.storedIdentity = i := by
  rw [hasFill_iff_mem, applyFills_identities h, List.mem_append, hasFill_iff_mem, List.mem_map]

theorem applyFills_hasFill (h : applyFills rate db as = .ok db') (ha : a ∈ as)
    (htime : a.fill.createdTime ≠ none) : db'.hasFill a.lookupIdentity = true := by
  rw [applyFills_hasFill_iff h, hasFill_iff_mem]
  exact mem_fresh ha htime

theorem applyFills_signed (h : applyFills rate db as = .ok db')
    (hdb : ∀ p ∈ db.positions.rows, 0 ≤ p.count) (has : ∀ a ∈ as, 0 ≤ a.fill.count) :
    (∀ p ∈ db'.positions.rows, 0 ≤ p.count) ∧
      ∀ t, db'.signed t = replay t (db.signed t) (fresh db.identities as) := by
  induction as generalizing db with
  | nil =>
    cases h
    exact ⟨hdb, fun t => rfl⟩
  | cons a as ih =>
    obtain ⟨db₁, δ, happ, hrest⟩ := applyFills_cons_ok.mp h
    have hcounts := applyFill_count_nonneg hdb (has a List.mem_cons_self) happ
    obtain ⟨hend, hreplay⟩ := ih hrest hcounts (fun b hb => has b (List.mem_cons_of_mem _ hb))
    refine ⟨hend, fun t => ?_⟩
    rw [hreplay]
    rcases applyFill_view happ with ⟨hseen, rfl⟩ | ⟨hnew, hids, hsigned⟩
    · rw [fresh_cons_seen as hseen]
    · rw [fresh_cons_new as hnew, hids, hsigned hdb]
      rfl

end Booked

theorem hasFill_of_booked {db db' : Db} (h : db.booked = db'.booked) (i : FillIdentity) :
    db.hasFill i = db'.hasFill i := by
  rw [Db.hasFill, (Prod.mk.inj h).1, Db.hasFill]

theorem signed_of_booked {db db' : Db} (h : db.booked = db'.booked) (t : Ticker) :
    db.signed t = db'.signed t := by
  rw [Db.signed, (Prod.mk.inj h).2, Db.signed]

theorem applyFill_congr {rate δ : ℚ} {db₁ db₂ db₁' : Db} {a : Arrival}
    (hbooked : db₁.booked = db₂.booked) (h : applyFill rate db₁ a = .ok (db₁', δ)) :
    ∃ db₂', applyFill rate db₂ a = .ok (db₂', δ) ∧ db₁'.booked = db₂'.booked := by
  obtain ⟨hfills, hpositions⟩ := Prod.mk.inj hbooked
  have hhas : db₁.hasFill a.lookupIdentity = db₂.hasFill a.lookupIdentity := by
    rw [Db.hasFill, hfills, Db.hasFill]
  have hpos : db₁.positionFor a.fill = db₂.positionFor a.fill := by
    rw [Db.positionFor, hpositions, Db.positionFor]
  obtain ⟨db₂', happ, ⟨rfl, rfl⟩ | ⟨row, pos, _, _, rfl, rfl⟩⟩ := applyFill_alike hhas hpos h
  · exact ⟨_, happ, hbooked⟩
  · refine ⟨_, happ, ?_⟩
    simp [Db.booked, Db.recordFill, hfills, hpositions]

section Ingest
variable {env : IngestEnv} {st st' : PollState} {a : Arrival} {as : List Arrival} {db : Db}

theorem ingestFill_ok (h : ingestFill env st a = .ok st') :
    ∃ db realized, applyFill env.takerRate st.db a = .ok (db, realized) ∧
      (realized = 0 ∧ st' = { st with db := db } ∨
        realized ≠ 0 ∧ st' = {
          db := { db with
            events := db.events ++ [fillEvent a.fill realized]
            orders := markFilled a.fill.orderId db.orders }
          applied := st.applied + 1
          maxTsSeen := max st.maxTsSeen a.second }) := by
  unfold ingestFill at h
  cases happ : applyFill env.takerRate st.db a with
  | error e => simp [happ] at h
  | ok r =>
    obtain ⟨db, realized⟩ := r
    simp only [happ] at h
    refine ⟨db, realized, rfl, ?_⟩
    by_cases hzero : realized = 0
    · rw [if_pos hzero] at h
      exact .inl ⟨hzero, (Except.ok.inj h).symm⟩
    · rw [if_neg hzero] at h
      cases hposted : (if env.discord then postedPrice a.fill else .ok 0) with
      | error e => simp [hposted] at h
      | ok price =>
        simp only [hposted, Except.ok.injEq] at h
        exact .inr ⟨hzero, h.symm⟩

theorem ingestFill_cases (h : ingestFill env st a = .ok st') :
    ∃ db realized, applyFill env.takerRate st.db a = .ok (db, realized) ∧
      st'.db.booked = db.booked ∧
      st'.db.orders = (if realized = 0 then db.orders else markFilled a.fill.orderId db.orders) ∧
      st'.maxTsSeen = if realized = 0 then st.maxTsSeen else max st.maxTsSeen a.second := by
  obtain ⟨db, realized, happ, ⟨hzero, rfl⟩ | ⟨hreal, rfl⟩⟩ := ingestFill_ok h
  · exact ⟨db, realized, happ, rfl, (if_pos hzero).symm, (if_pos hzero).symm⟩
  · exact ⟨db, realized, happ, rfl, (if_neg hreal).symm, (if_neg hreal).symm⟩

/-- Ingesting a list books it, and moves the newest second to the latest realized one. -/
theorem ingestPage_books (hbooked : st.db.booked = db.booked) (h : ingestPage env st as = .ok st') :
    ∃ db', applyFills env.takerRate db as = .ok db' ∧ st'.db.booked = db'.booked ∧
      st'.maxTsSeen = (realizedSeconds env.takerRate db as).foldl max st.maxTsSeen := by
  induction as generalizing st db with
  | nil =>
    cases h
    exact ⟨db, rfl, hbooked, rfl⟩
  | cons a as ih =>
    rw [ingestPage] at h
    cases hfill : ingestFill env st a with
    | error e => simp [hfill] at h
    | ok st₁ =>
      simp only [hfill] at h
      obtain ⟨db₁, δ, happ, hdb₁, _, hmax⟩ := ingestFill_cases hfill
      obtain ⟨db₂, happ', hdb₂⟩ := applyFill_congr hbooked happ
      obtain ⟨db', hrun, hdb', hlast⟩ := ih (hdb₁.trans hdb₂) h
      refine ⟨db', by simp [applyFills, happ', hrun], hdb', ?_⟩
      by_cases hzero : δ = 0 <;> simp [hlast, hmax, realizedSeconds, happ', hzero]

end Ingest

end KalshiAgent
