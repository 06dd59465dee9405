import KalshiAgent.Fills.FullyBooked
import KalshiAgent.Fills.Redelivery
import KalshiAgent.Lib.PerKey

/-! One poll of many fills against a poll for each. A fill reads and writes the position and the
stored fills of its ticker alone, so both come to the same positions when they book the fills of
each ticker in the same order. -/

namespace KalshiAgent
open Once PerKey

def Arrival.ticker (a : Arrival) : Ticker := a.fill.ticker

/-- What a fill of a ticker meets: its position, and the identities that are stored for it. -/
def Db.view (db : Db) (t : Ticker) : Option Position × List FillIdentity :=
  (db.positions.find t, db.identities.filter (fun i => i.ticker = t))

def PollState.view (st : PollState) : Ticker → Option Position × List FillIdentity := st.db.view

def singly (fills : List Arrival) : List ListFills := fills.map (fun a => .last [a])

def Arrival.Earlier (a b : Arrival) : Prop :=
  ∃ s ∈ a.fill.createdTime, ∃ t ∈ b.fill.createdTime, s < t

instance : DecidableRel Arrival.Earlier := fun a b =>
  inferInstanceAs (Decidable (∃ s ∈ a.fill.createdTime, ∃ t ∈ b.fill.createdTime, s < t))

theorem Arrival.Earlier.asymm {a b : Arrival} (hab : a.Earlier b) (hba : b.Earlier a) : False := by
  obtain ⟨s, hs, t, ht, hlt⟩ := hab
  obtain ⟨t', ht', s', hs', hgt⟩ := hba
  obtain rfl := Option.mem_unique hs hs'
  obtain rfl := Option.mem_unique ht ht'
  exact lt_asymm hlt hgt

section Apply
variable {rate δ : ℚ} {db db' : Db} {a : Arrival}

theorem hasFill_iff_view {i : FillIdentity} : db.hasFill i = true ↔ i ∈ (db.view i.ticker).2 := by
  rw [hasFill_iff_mem, Db.view, List.mem_filter]
  exact (and_iff_left (decide_eq_true rfl)).symm

theorem view_recordFill {row : Fill} {pos : Position} (hticker : pos.marketTicker = row.marketTicker)
    (t : Ticker) : (db.recordFill row pos).view t =
      if row.marketTicker = t then (some pos, (db.view t).2 ++ [row.identity]) else db.view t := by
  have hids : (db.recordFill row pos).identities = db.identities ++ [row.identity] := by
    simp [Db.identities, Db.recordFill]
  have hrow : [row.identity].filter (fun i => i.ticker = t) =
      if row.marketTicker = t then [row.identity] else [] := by
    simp [List.filter_cons, Fill.identity]
  rw [Db.view, hids, List.filter_append, hrow, Db.recordFill, KeyedTable.find_put, hticker]
  split_ifs with ht
  · rfl
  · rw [List.append_nil]
    rfl

theorem applyFill_frame (h : applyFill rate db a = .ok (db', δ)) {t : Ticker} (ht : t ≠ a.ticker) :
    db'.view t = db.view t := by
  rcases applyFill_cases h with ⟨_, rfl, _⟩ | ⟨_, price, moved, gross, _, htrade, _, rfl⟩
  · rfl
  · have hticker : moved.marketTicker = a.fill.ticker := trade_marketTicker htrade
    exact (view_recordFill hticker t).trans (if_neg ht.symm)

theorem applyFill_view_congr {db₂ : Db} (hview : db.view a.ticker = db₂.view a.ticker)
    (h : applyFill rate db a = .ok (db', δ)) :
    ∃ db₂', applyFill rate db₂ a = .ok (db₂', δ) ∧ db'.view a.ticker = db₂'.view a.ticker := by
  have hhas : db.hasFill a.lookupIdentity = db₂.hasFill a.lookupIdentity := by
    rw [Bool.eq_iff_iff, hasFill_iff_view, hasFill_iff_view]
    exact iff_of_eq (congrArg (fun v => a.lookupIdentity ∈ v.2) hview)
  have hpos : db.positionFor a.fill = db₂.positionFor a.fill :=
    congrArg (fun v => v.1.getD (newPosition a.fill)) hview
  obtain ⟨db₂', happ, ⟨rfl, rfl⟩ | ⟨row, pos, hrow, hticker, rfl, rfl⟩⟩ := applyFill_alike hhas hpos h
  · exact ⟨_, happ, hview⟩
  · have hsame : pos.marketTicker = row.marketTicker := hticker.trans hrow.symm
    refine ⟨_, happ, ?_⟩
    rw [view_recordFill hsame, view_recordFill hsame, hview]

end Apply

section Step
variable {env : IngestEnv}

theorem ingestPage_eq_process (env : IngestEnv) (st : PollState) (as : List Arrival) :
    ingestPage env st as = process (ingestFill env) st as := by
  induction as generalizing st with
  | nil => rfl
  | cons a as ih =>
    rw [ingestPage, process]
    cases ingestFill env st a with
    | error e => rfl
    | ok st' => exact ih st'

theorem view_of_booked {db db' : Db} (h : db.booked = db'.booked) (t : Ticker) :
    db.view t = db'.view t := by
  obtain ⟨hfills, hpositions⟩ := Prod.mk.inj h
  rw [Db.view, Db.view, Db.identities, Db.identities, hfills, hpositions]

theorem ingestFill_local (env : IngestEnv) :
    Local (ingestFill env) Arrival.ticker PollState.view := by
  constructor
  · intro st a st' t h ht
    obtain ⟨db, δ, happ, hbooked, _⟩ := ingestFill_cases h
    exact (view_of_booked hbooked t).trans (applyFill_frame happ ht)
  · intro st₁ st₂ a st₁' h hview
    obtain ⟨db₁, δ, happ, hbooked, _⟩ := ingestFill_cases h
    obtain ⟨db₂, happ₂, hview₂⟩ := applyFill_view_congr hview happ
    have hposts : ∃ st₂', ingestFill env st₂ a = .ok st₂' := by
      unfold ingestFill at h ⊢
      rw [happ] at h
      rw [happ₂]
      dsimp only at h ⊢
      by_cases hzero : δ = 0
      · rw [if_pos hzero]
        exact ⟨_, rfl⟩
      · rw [if_neg hzero] at h ⊢
        cases hposted : (if env.discord then postedPrice a.fill else .ok 0) with
        | error e => simp [hposted] at h
        | ok price => exact ⟨_, rfl⟩
    obtain ⟨st₂', hfill⟩ := hposts
    obtain ⟨db₂', δ₂, happ₂', hbooked₂, _⟩ := ingestFill_cases hfill
    cases happ₂.symm.trans happ₂'
    refine ⟨st₂', hfill, ?_⟩
    exact (view_of_booked hbooked _).trans (hview₂.trans (view_of_booked hbooked₂ _).symm)

theorem polls_singly {s : Ingestor} {st st' : PollState} {as : List Arrival}
    (hviews : ∀ t, st.view t = s.db.view t) (h : ingestPage env st as = .ok st') :
    ∀ t, (s.polls env (singly as)).db.view t = st'.view t := by
  induction as generalizing s st with
  | nil =>
    cases h
    exact fun t => (hviews t).symm
  | cons a as ih =>
    rw [ingestPage] at h
    cases hfill : ingestFill env st a with
    | error e => simp [hfill] at h
    | ok st₁ =>
      simp only [hfill] at h
      have hone : ingestPage env st [a] = .ok st₁ := by
        rw [ingestPage, hfill]
        rfl
      rw [ingestPage_eq_process] at hone
      have hopening : ∀ t, st.view t = (s.opening env).view t := hviews
      obtain ⟨st₂, hpoll, hsame⟩ :=
        process_congr (ingestFill_local env) hopening (fun _ => rfl) hone
      rw [← ingestPage_eq_process] at hpoll
      have hnext : ∀ t, st₁.view t = (s.poll env (.last [a])).db.view t := by
        intro t
        rw [poll_db, fetchLoop, hpoll]
        exact (hsame t).symm
      exact ih hnext h

end Step

/-- A poll that no exception leaves comes to the positions of a poll for each fill it reads, in the
order of the listing; so it comes to those of a poll each in the order of time, when the fills of
each ticker are listed in that order. -/
theorem poll_granularity (env : IngestEnv) (s : Ingestor) (script : ListFills)
    (hreturns : script.Returns env (s.opening env)) :
    (∀ t, (s.poll env script).db.positions.find t =
        (s.polls env (singly script.returned)).db.positions.find t) ∧
      ∀ fills : List Arrival, fills.Perm script.returned → fills.Pairwise Arrival.Earlier →
        (∀ t, (items Arrival.ticker t script.returned).Pairwise Arrival.Earlier) →
          ∀ t, (s.poll env script).db.positions.find t =
            (s.polls env (singly fills)).db.positions.find t := by
  obtain ⟨st, hloop⟩ : ∃ st, fetchLoop env (s.opening env) script = (st, none) :=
    ⟨_, Prod.ext rfl (fetchLoop_returns_iff.mpr hreturns)⟩
  have hpage := fetchLoop_returned hloop
  have hdb : (s.poll env script).db = st.db := by rw [poll_db, hloop]
  have hopening : ∀ t, (s.opening env).view t = s.db.view t := fun t => rfl
  constructor
  · intro t
    rw [hdb]
    exact (congrArg Prod.fst (polls_singly hopening hpage t)).symm
  · intro fills hperm hsorted hlisted t
    have hitems : ∀ t, items Arrival.ticker t script.returned = items Arrival.ticker t fills := by
      intro t
      have hfilter : (items Arrival.ticker t fills).Pairwise Arrival.Earlier := hsorted.filter _
      exact List.Perm.eq_of_pairwise (fun a b _ _ hab hba => (hab.asymm hba).elim) (hlisted t)
        hfilter (hperm.symm.filter _)
    rw [ingestPage_eq_process] at hpage
    obtain ⟨st', hfills, hsame⟩ :=
      process_congr (ingestFill_local env) (fun _ => rfl) hitems hpage
    rw [← ingestPage_eq_process] at hfills
    rw [hdb]
    exact (congrArg Prod.fst ((polls_singly hopening hfills t).trans (hsame t))).symm

def otherTicker : TimedFill := { boughtAt "o3" 100900000 with ticker := "BAR" }

theorem poll_granularity_twoTickers :
    let script : ListFills :=
      .page [otherTicker.arrival] (.last [(boughtAt "o1" 100200000).arrival, flatFill.arrival])
    ∀ t, ((Ingestor.mk .empty none).poll plainEnv script).db.positions.find t =
      ((Ingestor.mk .empty none).polls plainEnv (singly [(boughtAt "o1" 100200000).arrival,
        flatFill.arrival, otherTicker.arrival])).db.positions.find t := by
  intro script
  have hreturns : script.Returns plainEnv ((Ingestor.mk .empty none).opening plainEnv) :=
    fetchLoop_returns_iff.mp (by decide +kernel)
  have hperm : [(boughtAt "o1" 100200000).arrival, flatFill.arrival, otherTicker.arrival].Perm
      script.returned := by decide +kernel
  refine (poll_granularity plainEnv ⟨.empty, none⟩ script hreturns).2 _ hperm (by decide) ?_
  intro t
  have hrest : [(boughtAt "o1" 100200000).arrival, flatFill.arrival].Pairwise Arrival.Earlier := by
    decide
  by_cases ht : t = "BAR"
  · subst ht
    decide
  · have hitems := @items_cons_of_ne _ _ _ Arrival.ticker otherTicker.arrival t ht
      [(boughtAt "o1" 100200000).arrival, flatFill.arrival]
    have hlisted : items Arrival.ticker t script.returned = items Arrival.ticker t
      [(boughtAt "o1" 100200000).arrival, flatFill.arrival] := hitems
    rw [hlisted]
    exact hrest.filter _

def dearBuy : TimedFill := { boughtAt "o4" 100500000 with
  yesPriceDollars := some (.decimal (60 / 100)) }

/-- A page with the newest fill first ends at another average price, and a page with a fill that has
no price leaves out the fill before it. -/
theorem not_poll_granularity :
    ((Ingestor.mk .empty none).poll plainEnv (.last [dearBuy.arrival, flatFill.arrival,
          (boughtAt "o1" 100200000).arrival])).db.positions.find "FOO" ≠
        ((Ingestor.mk .empty none).polls plainEnv (singly [(boughtAt "o1" 100200000).arrival,
          flatFill.arrival, dearBuy.arrival])).db.positions.find "FOO" ∧
      ((Ingestor.mk .empty none).poll plainEnv
          (.last [firstBuy, ⟨unpriced, 0, 0, 0⟩])).db.positions.find "FOO" ≠
        ((Ingestor.mk .empty none).polls plainEnv
          (singly [firstBuy, ⟨unpriced, 0, 0, 0⟩])).db.positions.find "FOO" := by
  decide +kernel

end KalshiAgent
