import KalshiAgent.Safety.Reconciliation

/-! The list of positions that a reconciliation goes by. The endpoint answers with one page and
a cursor to the next; the client asks for the first page and no other. -/

namespace KalshiAgent

/-- The positions endpoint: what the account holds, and how much of it one answer carries. -/
structure PositionsEndpoint where
  portfolio : KeyedTable KalshiPosition.ticker
  pageSize : ℕ

/-- One page, from the row the cursor stands for, and the cursor to the page after it. -/
def PositionsEndpoint.page (e : PositionsEndpoint) (cursor : ℕ) : List KalshiPosition × Option ℕ :=
  let rest := e.portfolio.rows.drop cursor
  (rest.take e.pageSize, if e.pageSize < rest.length then some (cursor + e.pageSize) else none)

/-- `KalshiClient.list_positions`: the answer's `market_positions`, its cursor left unread. -/
def listPositions (e : PositionsEndpoint) : List KalshiPosition := (e.page 0).1

/-- Every position the server holds is held here, with its side and count, and none of them
has been taken for closed. -/
structure Mirrors (e : PositionsEndpoint) (db : Db) (ds : List Discrepancy) : Prop where
  held : ∀ rpos ∈ e.portfolio.rows, rpos.position ≠ 0 →
    ∃ p, db.positions.find rpos.ticker = some p ∧ (p.side, p.count) = remoteHolding rpos.position
  notClosed : ∀ t side count, .missingRemote t side count ∈ ds →
    ∀ rpos, e.portfolio.find t = some rpos → rpos.position = 0

theorem listPositions_eq (e : PositionsEndpoint) :
    listPositions e = (e.portfolio.take e.pageSize).rows := by
  rw [listPositions, PositionsEndpoint.page, List.drop_zero]
  rfl

theorem mirroredRow_listed {lpos : Option Position} {rpos : KalshiPosition} {p : Position}
    {d : Discrepancy} (h : mirroredRow lpos rpos = some (p, d)) (t : Ticker) (side : Side) (count : ℤ) :
    d ≠ .missingRemote t side count := by
  rintro rfl
  unfold mirroredRow mirrorRow at h
  cases lpos with
  | none => cases h
  | some lpos =>
    dsimp only at h
    split_ifs at h <;> cases h

theorem missingRemote_absent {source : String} {db db' : Db} {remote : List KalshiPosition}
    {ds : List Discrepancy} (h : reconcileInner source db (.ok remote) = .ok (db', .ok ds))
    {t : Ticker} {side : Side} {count : ℤ} (hclosed : .missingRemote t side count ∈ ds) :
    (KeyedTable.ofList remote : KeyedTable KalshiPosition.ticker).find t = none := by
  unfold reconcileInner at h
  dsimp only at h
  split at h
  · cases h
  · next mirrored hmirrored =>
    simp only [Except.ok.injEq, Prod.mk.injEq, ReconcileResult.ok.injEq] at h
    rw [← h.2, List.map_append, List.mem_append] at hclosed
    rcases hclosed with hclosed | hclosed
    · obtain ⟨⟨p, d⟩, hmem, hd⟩ := List.mem_map.mp hclosed
      rw [mirrorRemote_ok hmirrored, List.mem_filterMap] at hmem
      obtain ⟨rpos, _, hrow⟩ := hmem
      exact absurd hd (mirroredRow_listed hrow t side count)
    · obtain ⟨⟨p, d⟩, hmem, hd⟩ := List.mem_map.mp hclosed
      obtain ⟨lpos, _, hrow⟩ := List.mem_filterMap.mp hmem
      dsimp only at hd
      subst hd
      unfold closeAbsent at hrow
      split_ifs at hrow with habsent
      cases hrow
      exact habsent.1

theorem remoteHolding_of_signed {p : Position} {position : ℤ} (hsigned : p.signed = position)
    (hcount : p.count = |position|) (hheld : position ≠ 0) :
    (p.side, p.count) = remoteHolding position := by
  have hpositive : 0 < |position| := abs_pos.mpr hheld
  unfold Position.signed at hsigned
  rw [hcount] at hsigned ⊢
  unfold remoteHolding
  rw [if_neg hheld]
  cases hside : p.side with
  | yes =>
    rw [hside, Side.sign, one_mul] at hsigned
    rw [if_pos (hsigned ▸ hpositive)]
  | no =>
    rw [hside, Side.sign, neg_one_mul] at hsigned
    rw [if_neg (by omega)]

/-- A successful reconciliation mirrors the server exactly where nothing is held past the
first page. -/
theorem mirrors_iff {source : String} {e : PositionsEndpoint} {db db' : Db} {ds : List Discrepancy}
    (h : reconcileInner source db (.ok (listPositions e)) = .ok (db', .ok ds)) :
    Mirrors e db' ds ↔ ∀ rpos ∈ e.portfolio.rows.drop e.pageSize, rpos.position = 0 := by
  have hlisted : ∀ t, (KeyedTable.ofList (listPositions e) : KeyedTable KalshiPosition.ticker).find t =
      (e.portfolio.take e.pageSize).find t := by
    intro t
    rw [listPositions_eq, KeyedTable.find_ofList_rows]
  constructor
  · intro hmirrors rpos hlater
    by_contra hheld
    obtain ⟨p, hfind, hholding⟩ := hmirrors.held rpos (List.mem_of_mem_drop hlater) hheld
    rw [reconcile_find h, hlisted, KeyedTable.find_take_of_mem_drop hlater] at hfind
    -- the row of an unlisted ticker has no contracts left
    obtain ⟨l, _, rfl⟩ := Option.map_eq_some_iff.mp hfind
    have hcount : (0 : ℤ) = |rpos.position| := by
      rw [← remoteHolding_count, ← hholding]
    exact hheld (abs_eq_zero.mp hcount.symm)
  · intro hflat
    refine ⟨?_, ?_⟩
    · intro rpos hmem hheld
      have hfirst : rpos ∈ (e.portfolio.take e.pageSize).rows := by
        rw [← List.take_append_drop e.pageSize e.portfolio.rows, List.mem_append] at hmem
        exact hmem.resolve_right fun hlater => hheld (hflat rpos hlater)
      obtain ⟨p, hrow, hsigned, hcount, _⟩ :=
        reconciledRow_some (db.positions.find rpos.ticker) rpos
      refine ⟨p, ?_, remoteHolding_of_signed hsigned hcount hheld⟩
      rw [reconcile_find h, hlisted, KeyedTable.find_of_mem hfirst]
      exact hrow
    · intro t side count hclosed rpos hfind
      have habsent := missingRemote_absent h hclosed
      rw [hlisted] at habsent
      obtain ⟨hmem, rfl⟩ := KeyedTable.find_eq_some_iff.mp hfind
      rw [← List.take_append_drop e.pageSize e.portfolio.rows, List.mem_append] at hmem
      rcases hmem with hfirst | hlater
      · have hpresent : (e.portfolio.take e.pageSize).find rpos.ticker = some rpos :=
          KeyedTable.find_of_mem hfirst
        rw [habsent] at hpresent
        cases hpresent
      · exact hflat rpos hlater

def holdsOne : PositionsEndpoint where
  portfolio := .ofList [⟨"FOO", -10, none⟩]
  pageSize := 100

theorem mirrors_iff_onePage :
    ∃ db' ds, reconcileInner "startup" .empty (.ok (listPositions holdsOne)) = .ok (db', .ok ds) ∧
      (Mirrors holdsOne db' ds ↔
        ∀ rpos ∈ holdsOne.portfolio.rows.drop holdsOne.pageSize, rpos.position = 0) :=
  ⟨_, _, rfl, mirrors_iff rfl⟩

def hundredAndOne : PositionsEndpoint where
  portfolio := .ofList ((List.range 101).map fun n => ⟨"KX" ++ toString n, 10, none⟩)
  pageSize := 100

def holdsKX100 : Db :=
  { Db.empty with positions := KeyedTable.empty.put ⟨"KX100", .yes, 10, ⟨5000⟩, 0⟩ }

/-- The market on the second page is taken for closed. -/
theorem not_mirrors :
    ∃ db' ds, reconcileInner "scheduled" holdsKX100 (.ok (listPositions hundredAndOne)) =
        .ok (db', .ok ds) ∧ ¬ Mirrors hundredAndOne db' ds := by
  have hclosed : (match reconcileInner "scheduled" holdsKX100 (.ok (listPositions hundredAndOne)) with
      | .ok (_, .ok ds) => decide (.missingRemote "KX100" .yes 10 ∈ ds)
      | .ok (_, .failed _) => false
      | .error _ => false) = true := by
    decide +kernel
  have hheld : hundredAndOne.portfolio.find "KX100" = some ⟨"KX100", 10, none⟩ := by decide +kernel
  split at hclosed
  · next db' ds hrun =>
    refine ⟨db', ds, hrun, fun hmirrors => ?_⟩
    have hzero := hmirrors.notClosed _ _ _ (of_decide_eq_true hclosed) _ hheld
    exact absurd hzero (by decide)
  · exact absurd hclosed Bool.false_ne_true
  · exact absurd hclosed Bool.false_ne_true

end KalshiAgent
