import KalshiAgent.Fills.Polling
import KalshiAgent.Safety.Reconciliation

/-! The two ways the local positions follow the server's, one after the other: the reconciler
writes the server's positions over them, then the ingestor books the fills it has not stored. -/

namespace KalshiAgent

def neutralArrival : Arrival :=
  TimedFill.arrival { boughtAt "o2" 100700000 with
    side := .no, noPriceDollars := some (.decimal (1 / 2)) }

/-- The sequence of the startup, of the hourly tick and of the manual trigger. -/
def resync (env : IngestEnv) (source : String) (db : Db) (highWaterTs : Option ℤ)
    (positions : Except ClientError (List KalshiPosition)) (listFills : Option ℤ → ListFills) :
    Except ReconcileError Fetched :=
  match reconcileInner source db positions with
  | .error e => .error e
  | .ok (db', _) => .ok (catchUp env db' highWaterTs listFills)

def KalshiFill.traded (fill : KalshiFill) : ℤ :=
  match fill.action with
  | .buy => fill.side.sign * fill.count
  | .sell => -(fill.side.sign * fill.count)

def netTraded (t : Ticker) (fills : List KalshiFill) : ℤ :=
  ((fills.filter (fun f => f.ticker = t)).map KalshiFill.traded).sum

/-- Fills that the server recorded after the local positions had last equalled its own, with
`remote` the position list after them. -/
structure FurtherFills (env : IngestEnv) (db : Db) (highWaterTs : Option ℤ)
    (remote : List KalshiPosition) (fills : List TimedFill) : Prop where
  moved : ∀ t, remoteSigned remote t =
    db.signed t + netTraded t (fills.map TimedFill.toKalshiFill)
  distinct : (fills.map (fun f => f.tradeId)).Nodup
  count_pos : ∀ f ∈ fills, 1 ≤ f.count
  unseen : ∀ f ∈ fills, db.hasFill f.identity = false
  aboveMark : ∀ f ∈ fills,
    asked (some (highWaterTs.getD (loadHighWater env db))) f.second = true

/-- The positions after the sequence: the server's, with the booked fills replayed on them. -/
theorem resync_signed {env : IngestEnv} {source : String} {db : Db} {highWaterTs : Option ℤ}
    {remote : List KalshiPosition} {script : ListFills} {r : Fetched} {n : ℕ}
    (hrun : resync env source db highWaterTs (.ok remote) (fun _ => script) = .ok r)
    (hret : r.result = .ok n) (hcounts : ∀ a ∈ script.returned, 1 ≤ a.fill.count) (t : Ticker) :
    r.db.signed t = replay t (remoteSigned remote t) (fresh db.identities script.returned) := by
  unfold resync at hrun
  cases hrec : reconcileInner source db (.ok remote) with
  | error e => simp [hrec] at hrun
  | ok p =>
    obtain ⟨db', result⟩ := p
    simp only [hrec, Except.ok.injEq] at hrun
    subst hrun
    obtain ⟨ds, rfl⟩ := reconcile_result hrec
    obtain ⟨st, hpage, hdb, _⟩ := fetchAndApply_ok hret
    obtain ⟨db₁, hbook, hbooked, _⟩ := ingestPage_books rfl hpage
    have hfills := (reconcile_frame hrec).1
    have hids : db'.identities = db.identities := by rw [Db.identities, hfills, Db.identities]
    have hsigned := (applyFills_signed hbook (reconcile_count_nonneg hrec)
      (fun a ha => Int.le_of_lt (hcounts a ha))).2 t
    rw [reconcile_signed hrec, hids] at hsigned
    rw [← hsigned, ← signed_of_booked hbooked]
    exact congrArg (fun d : Db => d.signed t) hdb

/-- The local positions end up equal to the server's exactly when the fills that are booked on
top of them, replayed from the server's positions, lead back to these. -/
theorem resync_matches_iff {env : IngestEnv} {source : String} {db : Db} {highWaterTs : Option ℤ}
    {remote : List KalshiPosition} {script : ListFills} {r : Fetched} {n : ℕ}
    (hrun : resync env source db highWaterTs (.ok remote) (fun _ => script) = .ok r)
    (hret : r.result = .ok n) (hcounts : ∀ a ∈ script.returned, 1 ≤ a.fill.count) :
    (∀ t, r.db.signed t = remoteSigned remote t) ↔
      ∀ t, replay t (remoteSigned remote t) (fresh db.identities script.returned) =
        remoteSigned remote t :=
  forall_congr' (fun t => by rw [resync_signed hrun hret hcounts])

theorem ok_of_toOption {ε α : Type*} {x : Except ε α} {a : α} (h : x.toOption = some a) :
    x = .ok a := by
  cases x with
  | error e => cases h
  | ok b => exact congrArg Except.ok (Option.some.inj h)

theorem resync_matches_neutral :
    ∃ r, resync plainEnv "startup" .empty none (.ok [⟨"FOO", 0, none⟩])
        (fun _ => .last [(boughtAt "o1" 100200000).arrival, neutralArrival]) = .ok r ∧
      ∀ t, r.db.signed t = remoteSigned [⟨"FOO", 0, none⟩] t := by
  have hruns : ((resync plainEnv "startup" .empty none (.ok [⟨"FOO", 0, none⟩])
      (fun _ => .last [(boughtAt "o1" 100200000).arrival, neutralArrival])).toOption.bind
        (fun r => r.result.toOption)) = some 2 := by
    decide +kernel
  obtain ⟨r, hr, hn⟩ := Option.bind_eq_some_iff.mp hruns
  have hrun := ok_of_toOption hr
  refine ⟨r, hrun, (resync_matches_iff hrun (ok_of_toOption hn) (by decide)).mpr fun t => ?_⟩
  by_cases ht : t = "FOO"
  · subst ht
    decide +kernel
  · have hfoo : ∀ a ∈ [(boughtAt "o1" 100200000).arrival, neutralArrival], a.fill.ticker = "FOO" := by
      decide
    exact replay_other (fun a ha => hfoo a (fresh_subset ha) ▸ Ne.symm ht) _

theorem replay_buys {as : List Arrival} (hbuys : ∀ a ∈ as, a.fill.action = .buy) (t : Ticker) (q : ℤ) :
    replay t q as = q + netTraded t (as.map Arrival.fill) := by
  induction as generalizing q with
  | nil => exact (add_zero q).symm
  | cons a as ih =>
    have hbuy := hbuys a List.mem_cons_self
    have hrest := ih (fun b hb => hbuys b (List.mem_cons_of_mem _ hb))
    by_cases ht : a.fill.ticker = t
    · have htraded : a.fill.traded = a.fill.side.sign * a.fill.count := by
        simp [KalshiFill.traded, hbuy]
      have hcons : netTraded t ((a :: as).map Arrival.fill) =
          a.fill.traded + netTraded t (as.map Arrival.fill) := by
        simp [netTraded, ht]
      change replay t (if a.fill.ticker = t then signedTrade q a.fill else q) as = _
      rw [if_pos ht, hrest, signedTrade_buy hbuy, hcons, htraded, add_assoc]
    · have hcons : netTraded t ((a :: as).map Arrival.fill) = netTraded t (as.map Arrival.fill) := by
        simp [netTraded, ht]
      change replay t (if a.fill.ticker = t then signedTrade q a.fill else q) as = _
      rw [if_neg ht, hrest, hcons]

/-- For further fills that are all buys and all told apart, the sequence counts each of them
twice: the positions match only where the fills of every ticker cancel out. -/
theorem resync_buys_iff {env : IngestEnv} {source : String} {db : Db} {highWaterTs : Option ℤ}
    {remote : List KalshiPosition} {fills : List TimedFill} {script : ListFills} {r : Fetched} {n : ℕ}
    (hfurther : FurtherFills env db highWaterTs remote fills)
    (hlisted : (script.returned.map Arrival.fill).Perm (fills.map TimedFill.toKalshiFill))
    (hbuys : ∀ f ∈ fills, f.action = .buy) (hdistinct : script.returned.Pairwise DistinctIdentity)
    (hrun : resync env source db highWaterTs (.ok remote) (fun _ => script) = .ok r)
    (hret : r.result = .ok n) :
    (∀ t, r.db.signed t = remoteSigned remote t) ↔
      ∀ t, netTraded t (fills.map TimedFill.toKalshiFill) = 0 := by
  have hmem : ∀ a ∈ script.returned, ∃ f ∈ fills, f.toKalshiFill = a.fill := by
    intro a ha
    exact List.mem_map.mp (hlisted.mem_iff.mp (List.mem_map_of_mem ha))
  have hunseen : ∀ a ∈ script.returned, a.lookupIdentity ∉ db.identities := by
    intro a ha
    obtain ⟨f, hf, haf⟩ := hmem a ha
    rw [f.lookupIdentity_eq haf.symm, ← hasFill_iff_mem, hfurther.unseen f hf]
    exact Bool.false_ne_true
  have hcounts : ∀ a ∈ script.returned, 1 ≤ a.fill.count := by
    intro a ha
    obtain ⟨f, hf, haf⟩ := hmem a ha
    exact haf ▸ hfurther.count_pos f hf
  have hbuys' : ∀ a ∈ script.returned, a.fill.action = .buy := by
    intro a ha
    obtain ⟨f, hf, haf⟩ := hmem a ha
    exact haf ▸ hbuys f hf
  have hnet : ∀ t, netTraded t (script.returned.map Arrival.fill) =
      netTraded t (fills.map TimedFill.toKalshiFill) :=
    fun t => ((hlisted.filter _).map _).sum_eq
  refine forall_congr' (fun t => ?_)
  rw [resync_signed hrun hret hcounts, fresh_eq_self hunseen hdistinct, replay_buys hbuys', hnet]
  exact add_eq_left

/-- One contract bought since the last equality is counted twice: by the server's position and by
its fill. -/
theorem not_resync_matches :
    FurtherFills plainEnv .empty none [⟨"FOO", 1, none⟩] [boughtAt "o1" 100200000] ∧
      ∃ r, resync plainEnv "startup" .empty none (.ok [⟨"FOO", 1, none⟩])
          (fun _ => .last [(boughtAt "o1" 100200000).arrival]) = .ok r ∧
        r.result = .ok 1 ∧ ¬ ∀ t, r.db.signed t = remoteSigned [⟨"FOO", 1, none⟩] t := by
  constructor
  · refine ⟨fun t => ?_, by decide, by decide, by decide, by decide +kernel⟩
    by_cases ht : "FOO" = t
    · subst ht
      decide +kernel
    · simp [remoteSigned, KeyedTable.ofList, KeyedTable.putAll, KeyedTable.find_put, ht, netTraded,
        boughtAt, Db.signed, Db.empty]
  · have hruns : ((resync plainEnv "startup" .empty none (.ok [⟨"FOO", 1, none⟩])
        (fun _ => .last [(boughtAt "o1" 100200000).arrival])).toOption.map
          (fun r => (r.result.toOption, r.db.signed "FOO"))) = some (some 1, 2) := by
      decide +kernel
    obtain ⟨r, hr, hend⟩ := Option.map_eq_some_iff.mp hruns
    simp only [Prod.mk.injEq] at hend
    refine ⟨r, ok_of_toOption hr, ok_of_toOption hend.1, fun h => ?_⟩
    have hfoo : r.db.signed "FOO" = 1 := (h "FOO").trans (by decide +kernel)
    omega

end KalshiAgent
