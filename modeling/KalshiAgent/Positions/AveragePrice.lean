import KalshiAgent.Positions.History

/-! Histories of buys. The signed position is YES bought minus NO bought, whatever the order,
and the stored average stays between the lowest and the highest price of the open leg: the buys
of the open side since the position was last flat or flipped. -/

namespace KalshiAgent

/-- The signed position with the prices of its open leg. -/
structure OpenLeg where
  net : ℤ
  prices : List ℚ
  deriving DecidableEq

namespace OpenLeg

def empty : OpenLeg := ⟨0, []⟩

def record (l : OpenLeg) (fill : KalshiFill) : OpenLeg where
  net := l.net + fill.side.sign * fill.count
  prices :=
    let held := fill.side.sign * l.net
    if held = 0 then [fill.price]
    else if 0 < held then l.prices ++ [fill.price]
    else if fill.count < -held then l.prices
    else if fill.count = -held then []
    else [fill.price]

end OpenLeg

def InHull (prices : List ℚ) (x : ℚ) : Prop :=
  ∃ lo ∈ prices, ∃ hi ∈ prices, (∀ p ∈ prices, lo ≤ p ∧ p ≤ hi) ∧ lo ≤ x ∧ x ≤ hi

theorem inHull_singleton (x : ℚ) : InHull [x] x :=
  ⟨x, List.mem_singleton_self x, x, List.mem_singleton_self x, by simp, le_rfl, le_rfl⟩

theorem InHull.concat {prices : List ℚ} {x y p : ℚ} (h : InHull prices x)
    (hlow : min x p ≤ y) (hhigh : y ≤ max x p) : InHull (prices ++ [p]) y := by
  obtain ⟨lo, hlo, hi, hhi, hall, hx⟩ := h
  have hmem : ∀ q ∈ prices ++ [p], min lo p ≤ q ∧ q ≤ max hi p := by
    intro q hq
    rcases List.mem_append.mp hq with hq | hq
    · exact ⟨(min_le_left _ _).trans (hall q hq).1, (hall q hq).2.trans (le_max_left _ _)⟩
    · rw [List.mem_singleton.mp hq]
      exact ⟨min_le_right _ _, le_max_right _ _⟩
  refine ⟨min lo p, ?_, max hi p, ?_, hmem, ?_, ?_⟩
  · rcases min_choice lo p with h | h <;> rw [h]
    · exact List.mem_append_left _ hlo
    · simp
  · rcases max_choice hi p with h | h <;> rw [h]
    · exact List.mem_append_left _ hhi
    · simp
  · exact (min_le_min_right p hx.1).trans hlow
  · exact hhigh.trans (max_le_max_right p hx.2)

structure Averaged (pos : Position) (l : OpenLeg) : Prop where
  net : pos.signed = l.net
  count_nonneg : 0 ≤ pos.count
  flat : pos.count = 0 → pos.avgPriceDollars = .zero
  hull : 0 < pos.count → InHull l.prices pos.avgPriceDollars.toDecimal

theorem Averaged.step {pos moved : Position} {l : OpenLeg} {fill : KalshiFill} {gross δ : ℚ}
    (hav : Averaged pos l) (h : Moves pos fill fill.price moved gross) (hbuy : fill.action = .buy)
    (hn : 1 ≤ fill.count) (htick : OnTick fill.price) :
    Averaged (moved.accrue δ) (l.record fill) := by
  have hexact : (priceDecimalToStr fill.price).toDecimal = fill.price :=
    toDecimal_priceDecimalToStr htick.2.2
  have hpos := hav.count_nonneg
  have hnet : moved.signed = (l.record fill).net := by
    rw [h.signed hpos, signedTrade_buy hbuy, hav.net]
    rfl
  refine ⟨hnet, h.count_nonneg hpos (by omega), ?_, ?_⟩
  · -- a buy leaves no contracts only by pairing off all of them, and then resets the average
    cases h with
    | opens => exact fun h0 => absurd h0 (show fill.count ≠ 0 by omega)
    | topsUp => exact fun h0 => absurd h0 (show pos.count + fill.count ≠ 0 by omega)
    | pairsSome => exact fun h0 => absurd h0 (show pos.count - fill.count ≠ 0 by omega)
    | pairsAll => exact fun _ => rfl
    | flips => exact fun h0 => absurd h0 (show fill.count - pos.count ≠ 0 by omega)
    | sellsNone haction => cases hbuy.symm.trans haction
    | sellsSome haction => cases hbuy.symm.trans haction
    | sellsAll haction => cases hbuy.symm.trans haction
  · intro hopen
    cases h with
    | opens haction hflat =>
      have hheld : fill.side.sign * l.net = 0 := by
        rw [← hav.net, signed_eq_zero_iff.mpr hflat, mul_zero]
      simp only [OpenLeg.record, if_pos hheld, Position.accrue, hexact]
      exact inHull_singleton _
    | topsUp haction hheld hside hsum =>
      have hheld' : fill.side.sign * l.net = pos.count := by
        rw [← hav.net, sign_mul_signed_of_eq hside]
      have hcount : 0 < pos.count := by omega
      simp only [OpenLeg.record, hheld', if_neg hheld, if_pos hcount, Position.accrue]
      have hbetween := rounded_mean_between pos.avgPriceDollars.fourPlaces_toDecimal htick.2.2
        (c := pos.count) (n := fill.count) (by exact_mod_cast hcount) (by exact_mod_cast hn)
      rw [← Int.cast_add] at hbetween
      exact (hav.hull hcount).concat hbetween.1 hbetween.2
    | pairsSome haction hheld hside hless =>
      have hheld' : fill.side.sign * l.net = -pos.count := by
        rw [← hav.net, sign_mul_signed_of_ne hside]
      have hcount : 0 < pos.count := by omega
      simp only [OpenLeg.record, hheld', neg_eq_zero, if_neg hheld, neg_neg, if_pos hless,
        if_neg (show ¬ 0 < -pos.count by omega), Position.accrue]
      exact hav.hull hcount
    | pairsAll => exact absurd hopen (lt_irrefl 0)
    | flips haction hheld hside hmore =>
      have hheld' : fill.side.sign * l.net = -pos.count := by
        rw [← hav.net, sign_mul_signed_of_ne hside]
      simp only [OpenLeg.record, hheld', neg_eq_zero, if_neg hheld, neg_neg, if_neg hmore.not_gt,
        if_neg hmore.ne', if_neg (show ¬ 0 < -pos.count by omega), Position.accrue, hexact]
      exact inHull_singleton _
    | sellsNone haction => cases hbuy.symm.trans haction
    | sellsSome haction => cases hbuy.symm.trans haction
    | sellsAll haction => cases hbuy.symm.trans haction

def bought (side : Side) (ds : List Arrival) : ℤ :=
  ((ds.filter (fun a => a.fill.side = side)).map (fun a => a.fill.count)).sum

theorem ghost_net (g : OpenLeg) (ds : List Arrival) :
    (ghost OpenLeg.record g ds).net = g.net + bought .yes ds - bought .no ds := by
  induction ds generalizing g with
  | nil => simp [ghost, bought]
  | cons a ds ih =>
    rw [show ghost OpenLeg.record g (a :: ds) = ghost OpenLeg.record (g.record a.fill) ds from rfl, ih]
    cases hs : a.fill.side <;> simp [OpenLeg.record, bought, hs, Side.sign] <;> ring

theorem bought_perm {side : Side} {ds es : List Arrival} (h : es.Perm ds) :
    bought side es = bought side ds :=
  ((h.filter _).map _).sum_eq

theorem admits_of_forall {γ : Type*} {record : γ → KalshiFill → γ} {p : KalshiFill → Prop}
    {ds : List Arrival} (h : ∀ a ∈ ds, p a.fill) (g : γ) : Admits record (fun _ => p) g ds := by
  induction ds generalizing g with
  | nil => trivial
  | cons a ds ih =>
    exact ⟨h a List.mem_cons_self, ih (fun b hb => h b (List.mem_cons_of_mem _ hb)) _⟩

theorem averaged_history (rate : ℚ) {db : Db} {t : Ticker} {ds : List Arrival}
    (habsent : db.positions.find t = none) (hh : History db t ds)
    (hbuy : ∀ a ∈ ds, a.fill.action = .buy) :
    ∃ db', applyFills rate db ds = .ok db' ∧
      ∀ side, Averaged (db'.rowFor t side) (ghost OpenLeg.record .empty ds) := by
  have hstart : ∀ side, Averaged (db.rowFor t side) .empty := by
    intro side
    rw [Db.rowFor, habsent]
    exact ⟨by simp [Position.signed, OpenLeg.empty], le_rfl, fun _ => rfl,
      fun h => absurd h (lt_irrefl 0)⟩
  exact applyFills_rule rate (fun _ _ h => h.count_nonneg)
    (fun _ _ _ _ _ hav hb hn htick hmoves => hav.step hmoves hb hn htick) hh
    (admits_of_forall (p := fun fill => fill.action = .buy) hbuy _) hstart

theorem signed_of_buys {rate : ℚ} {db db' : Db} {t : Ticker} {ds : List Arrival}
    (habsent : db.positions.find t = none) (hh : History db t ds)
    (hbuy : ∀ a ∈ ds, a.fill.action = .buy) (hrun : applyFills rate db ds = .ok db') :
    db'.signed t = bought .yes ds - bought .no ds := by
  obtain ⟨db₁, hrun₁, hend⟩ := averaged_history rate habsent hh hbuy
  obtain rfl : db' = db₁ := Except.ok.inj (hrun.symm.trans hrun₁)
  rw [signed_eq_rowFor db' t .yes, (hend .yes).net, ghost_net, OpenLeg.empty, zero_add]

/-- A history of buys from no position, of any length and in any order. -/
theorem buys_position (rate : ℚ) (db : Db) (t : Ticker) (ds : List Arrival)
    (habsent : db.positions.find t = none) (hh : History db t ds)
    (hbuy : ∀ a ∈ ds, a.fill.action = .buy) :
    ∃ db', applyFills rate db ds = .ok db' ∧
      db'.signed t = bought .yes ds - bought .no ds ∧
      (∀ es, es.Perm ds → ∃ db'', applyFills rate db es = .ok db'' ∧ db''.signed t = db'.signed t) ∧
      let pos := db'.rowFor t .yes
      0 ≤ pos.count ∧ (pos.count = 0 → pos.avgPriceDollars = .zero) ∧
        (0 < pos.count →
          InHull (ghost OpenLeg.record .empty ds).prices pos.avgPriceDollars.toDecimal) := by
  obtain ⟨db', hrun, hend⟩ := averaged_history rate habsent hh hbuy
  refine ⟨db', hrun, signed_of_buys habsent hh hbuy hrun, ?_, ?_⟩
  · intro es hperm
    have hes := hh.perm hperm
    have hbuys : ∀ a ∈ es, a.fill.action = .buy := fun a ha => hbuy a (hperm.mem_iff.mp ha)
    obtain ⟨db'', hrun'', _⟩ := averaged_history rate habsent hes hbuys
    refine ⟨db'', hrun'', ?_⟩
    rw [signed_of_buys habsent hes hbuys hrun'', signed_of_buys habsent hh hbuy hrun,
      bought_perm hperm, bought_perm hperm]
  · exact ⟨(hend .yes).count_nonneg, (hend .yes).flat, (hend .yes).hull⟩

def crossedBuys : List Arrival :=
  [(.yes, 10, 2 / 5, 1), (.yes, 5, 4101 / 10000, 2), (.no, 20, 11 / 20, 3)].map
    fun (side, count, price, time) =>
      ⟨⟨none, "o1", "FOO", side, .buy, count, some (.decimal price), some (.decimal price), true,
        some time⟩, 0, 0, 0⟩

theorem buys_position_crossed :
    ∃ db', applyFills (7 / 100) .empty crossedBuys = .ok db' ∧
      db'.signed "FOO" = bought .yes crossedBuys - bought .no crossedBuys ∧
      (∀ es, es.Perm crossedBuys → ∃ db'', applyFills (7 / 100) .empty es = .ok db'' ∧
        db''.signed "FOO" = db'.signed "FOO") ∧
      let pos := db'.rowFor "FOO" .yes
      0 ≤ pos.count ∧ (pos.count = 0 → pos.avgPriceDollars = .zero) ∧
        (0 < pos.count →
          InHull (ghost OpenLeg.record .empty crossedBuys).prices pos.avgPriceDollars.toDecimal) :=
  buys_position (7 / 100) .empty "FOO" crossedBuys rfl
    ⟨by decide +kernel, by decide +kernel, by decide +kernel, by decide +kernel, by decide +kernel⟩
    (by decide)

end KalshiAgent
