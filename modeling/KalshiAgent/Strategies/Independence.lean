import KalshiAgent.Strategies.Assessor

/-! Markets that are assessed on their own. An exception that leaves the round of one market ends the
tick, with the signals of the markets before it; where none does, the signals are those of each
market alone. -/

namespace KalshiAgent

def Json.Holds (reads : FloatReads) : Json → Prop
  | .int n => reads.ofInt n ≠ none
  | _ => True

def ScoresHold (reads : FloatReads) : Json → Prop
  | .obj fields =>
    ∀ prob ∈ fields.lookup "probability", prob.Holds reads ∧
      ((∃ x, prob.toFloat reads = .ok x) →
        ∀ conf ∈ fields.lookup "confidence", conf.Holds reads)
  | _ => True

def PyFloat.complement : PyFloat → Decimal
  | .finite x _ => .finite (defaultContext.round (1 - x))
  | .posInf => .infinite true
  | .negInf => .infinite false
  | .nan => .nan

structure ScoresFit (assessor : Assessor) (scores : Scores) (yesAsk noAsk : Decimal) : Prop where
  yes : defaultContext.Fits (-4) scores.prob.toDecimal yesAsk
  no : defaultContext.Fits (-4) scores.prob.complement noAsk
  gates : scores.prob.inUnit = true → scores.conf.inUnit = true →
    assessor.minConfidence.isNan = false ∧
      (assessor.minConfidence.le scores.conf.toDecimal = true →
        assessor.minEdge.isNan = false ∧ yesAsk.isNan = false ∧ noAsk.isNan = false)

structure Promptable (market : AssessedMarket) (yesAsk : Decimal) : Prop where
  mid : PriceText.given market.yesBidDollars = true →
    ∃ bid, market.yesBidDollars = some (.decimal bid) ∧ defaultContext.Adds bid yesAsk
  close : ∀ close ∈ market.closeTime, close.aware = true

def Answerable (assessor : Assessor) (yesAsk noAsk : Decimal) : Except ChatError Json → Prop
  | .error (.openRouter _) => True
  | .error (.raised _) => False
  | .ok resp => ScoresHold assessor.reads resp ∧
      ∀ scores, readScores assessor resp = .ok scores → ScoresFit assessor scores yesAsk noAsk

/-- The condition on a market: it is passed over, or its prices, its answer and its edges raise
nothing that leaves the round. -/
def Assessable (assessor : Assessor) (item : Assessment) : Prop :=
  item.market.active = true → PriceText.given item.market.yesAskDollars = true →
    PriceText.given item.market.noAskDollars = true →
      ∃ yesAsk noAsk, item.market.yesAskDollars = some (.decimal yesAsk) ∧
        item.market.noAskDollars = some (.decimal noAsk) ∧ Promptable item.market yesAsk ∧
          Answerable assessor yesAsk noAsk item.reply

def alone (assessor : Assessor) (item : Assessment) : List Signal :=
  match generateSignals assessor [item] with
  | .ok signals => signals
  | .error _ => []

def BestEdge (assessor : Assessor) (side : Side) (yesEdge noEdge : Decimal) : Prop :=
  match side with
  | .yes => assessor.minEdge.le yesEdge = true ∧ noEdge.le yesEdge = true
  | .no => assessor.minEdge.le noEdge = true ∧ yesEdge.le noEdge = true

structure SoundFor (assessor : Assessor) (item : Assessment) (signal : Signal) : Prop where
  ticker : signal.marketTicker = item.market.ticker
  probability : 0 ≤ signal.modelProbability ∧ signal.modelProbability ≤ 1
  confidence : 0 ≤ signal.confidence ∧ signal.confidence ≤ 1
  confident : assessor.minConfidence.le (.finite signal.confidence) = true
  edge : ∃ prob yesAsk noAsk yes no, prob.toDecimal = .finite signal.modelProbability ∧
    item.market.yesAskDollars = some (.decimal yesAsk) ∧
    item.market.noAskDollars = some (.decimal noAsk) ∧
    yesEdge prob yesAsk = .ok yes ∧ noEdge prob noAsk = .ok no ∧
      BestEdge assessor signal.side yes no

/-- The signals of a tick are those of each market alone, in order, and each is sound. -/
structure Independent (assessor : Assessor) (items : List Assessment) : Prop where
  signals : generateSignals assessor items = .ok (items.flatMap (alone assessor))
  sound : ∀ item ∈ items, ∀ signal ∈ alone assessor item, SoundFor assessor item signal

section Except
variable {ε α β : Type}

theorem bind_ok_iff {x : Except ε α} {f : α → Except ε β} {b : β} :
    (x >>= f) = .ok b ↔ ∃ a, x = .ok a ∧ f a = .ok b := by
  cases x with
  | error e => exact ⟨nofun, fun ⟨_, h, _⟩ => nomatch h⟩
  | ok a => exact ⟨fun h => ⟨a, rfl, h⟩, fun ⟨_, h, hf⟩ => Except.ok.inj h ▸ hf⟩

theorem trapped_ok_iff {x : Except Decimal.Trap α} {a : α} : trapped x = .ok a ↔ x = .ok a := by
  cases x with
  | ok b => simp [trapped]
  | error t => cases t <;> simp [trapped]

end Except

section Answer
variable {assessor : Assessor}

theorem toFloat_badSchema_iff {reads : FloatReads} {v : Json} :
    (∀ e, v.toFloat reads = .error e → e.badSchema = true) ↔ v.Holds reads := by
  cases v with
  | int n =>
    cases hread : reads.ofInt n with
    | none => simp [Json.toFloat, Json.Holds, hread, PyError.badSchema]
    | some x => simp [Json.toFloat, Json.Holds, hread]
  | str s =>
    cases hread : reads.ofStr s <;> simp [Json.toFloat, Json.Holds, hread, PyError.badSchema]
  | _ => simp [Json.toFloat, Json.Holds, PyError.badSchema]

theorem readScores_obj (assessor : Assessor) (fields : List (String × Json)) :
    readScores assessor (.obj fields) =
      match fields.lookup "probability" with
      | some prob =>
        match prob.toFloat assessor.reads with
        | .error e => .error e
        | .ok prob =>
          match fields.lookup "confidence" with
          | some conf =>
            match conf.toFloat assessor.reads with
            | .error e => .error e
            | .ok conf => .ok ⟨prob, conf,
                ((assessor.text ((fields.lookup "rationale").getD (.str ""))).take 500).copy⟩
          | none => .error .keyError
      | none => .error .keyError := by
  have hitem : ∀ key, (Json.obj fields).item key =
      match fields.lookup key with
      | some value => .ok value
      | none => .error .keyError := fun key => rfl
  unfold readScores
  rw [hitem, hitem]
  cases fields.lookup "probability" with
  | none => rfl
  | some prob =>
    dsimp only [bind, Except.bind]
    cases prob.toFloat assessor.reads with
    | error e => rfl
    | ok x =>
      cases fields.lookup "confidence" with
      | none => rfl
      | some conf =>
        dsimp only
        cases conf.toFloat assessor.reads <;> rfl

/-- Reading an answer ends in an exception it is guarded against, unless a score is past the
floats. -/
theorem readScores_badSchema_iff {resp : Json} :
    (∀ e, readScores assessor resp = .error e → e.badSchema = true) ↔
      ScoresHold assessor.reads resp := by
  cases resp with
  | obj fields =>
    rw [readScores_obj, ScoresHold]
    cases hprob : fields.lookup "probability" with
    | none => simp [PyError.badSchema]
    | some prob =>
      have hread := @toFloat_badSchema_iff assessor.reads prob
      dsimp only
      cases hfloat : prob.toFloat assessor.reads with
      | error e => simpa [hfloat] using hread
      | ok x =>
        cases hconf : fields.lookup "confidence" with
        | none => simpa [hfloat, PyError.badSchema] using hread
        | some conf =>
          have hread' := @toFloat_badSchema_iff assessor.reads conf
          dsimp only
          cases hfloat' : conf.toFloat assessor.reads with
          | error e => simp_all
          | ok y => simp_all
  | _ => exact iff_of_true (fun e h => by cases h; rfl) trivial

end Answer

section Scored
variable {assessor : Assessor} {scores : Scores} {yesAsk noAsk yes no : Decimal}

theorem abs_one_sub_le {x b : ℚ} (hb : 1 ≤ b) (h : |x| ≤ b) : |1 - x| ≤ b * 10 := by
  rw [abs_le] at h ⊢
  constructor <;> linarith

theorem complement_ok (x : PyFloat) :
    defaultContext.sub (.finite 1) x.toDecimal = .ok x.complement := by
  cases x with
  | finite x bound =>
    have hsmall : |1 - x| ≤ 10 ^ (513 : ℤ) := by
      have hfloat : floatBound ≤ 10 ^ 512 := by
        calc floatBound = (2 ^ 4) ^ 256 := by rw [floatBound, ← pow_mul]
          _ ≤ (10 ^ 2) ^ 256 := pow_le_pow_left₀ (by norm_num) (by norm_num) 256
          _ = 10 ^ 512 := by rw [← pow_mul]
      have hten : (10 : ℚ) ^ (513 : ℤ) = 10 ^ 512 * 10 := by rw [← pow_succ, ← zpow_natCast]; rfl
      rw [hten]
      exact abs_one_sub_le (one_le_pow₀ (by norm_num)) (bound.le.trans hfloat)
    exact Decimal.finish_of_le (by decide) (by decide) hsmall
  | posInf => rfl
  | negInf => rfl
  | nan => rfl

theorem noEdge_eq (x : PyFloat) (noAsk : Decimal) :
    noEdge x noAsk = trapped (defaultContext.sub x.complement noAsk) := by
  rw [noEdge, complement_ok]
  rfl

theorem toDecimal_isNan {x : PyFloat} (h : x.inUnit = true) :
    x.toDecimal.isNan = false ∧ x.complement.isNan = false := by
  cases x with
  | finite x bound => exact ⟨rfl, rfl⟩
  | _ => cases h

theorem compare_nan {d e : Decimal} (h : d.isNan = true ∨ e.isNan = true) :
    trapped (d.compareLe e) = .error .invalidOperation := by
  rw [Decimal.compareLe, if_pos (by simpa using h)]
  rfl

theorem compare_ok {d e : Decimal} (hd : d.isNan = false) (he : e.isNan = false) :
    trapped (d.compareLe e) = .ok (d.le e) := by
  rw [Decimal.compareLe_eq hd he]
  rfl

theorem signalSide_outOfRange (h : ¬(scores.prob.inUnit = true ∧ scores.conf.inUnit = true)) :
    signalSide assessor scores yes no = .ok none := by
  rw [signalSide, if_neg]
  · rfl
  · rwa [Bool.and_eq_true]

theorem signalSide_belowConfidence (hprob : scores.prob.inUnit = true)
    (hconf : scores.conf.inUnit = true) (hminConf : assessor.minConfidence.isNan = false)
    (h : assessor.minConfidence.le scores.conf.toDecimal = false) :
    signalSide assessor scores yes no = .ok none := by
  rw [signalSide, hprob, hconf, compare_ok hminConf (toDecimal_isNan hconf).1, h]
  rfl

theorem signalSide_eq (hprob : scores.prob.inUnit = true) (hconf : scores.conf.inUnit = true)
    (hminConf : assessor.minConfidence.isNan = false)
    (hconfident : assessor.minConfidence.le scores.conf.toDecimal = true)
    (hminEdge : assessor.minEdge.isNan = false) (hyes : yes.isNan = false)
    (hno : no.isNan = false) :
    signalSide assessor scores yes no =
      .ok (if assessor.minEdge.le yes && no.le yes then some .yes
        else if assessor.minEdge.le no then some .no else none) := by
  rw [signalSide, hprob, hconf, compare_ok hminConf (toDecimal_isNan hconf).1, hconfident,
    compare_ok hminEdge hyes, compare_ok hno hyes, compare_ok hminEdge hno]
  cases assessor.minEdge.le yes <;> cases no.le yes <;> cases assessor.minEdge.le no <;> rfl

theorem signalSide_ok_iff :
    (∃ side, signalSide assessor scores yes no = .ok side) ↔
      (scores.prob.inUnit = true → scores.conf.inUnit = true →
        assessor.minConfidence.isNan = false ∧
          (assessor.minConfidence.le scores.conf.toDecimal = true →
            assessor.minEdge.isNan = false ∧ yes.isNan = false ∧ no.isNan = false)) := by
  by_cases hunits : scores.prob.inUnit = true ∧ scores.conf.inUnit = true
  · obtain ⟨hprob, hconf⟩ := hunits
    simp only [hprob, hconf, forall_const]
    cases hminConf : assessor.minConfidence.isNan with
    | true =>
      rw [signalSide, hprob, hconf, compare_nan (.inl hminConf)]
      exact iff_of_false (fun ⟨_, h⟩ => nomatch h) (fun h => nomatch h.1)
    | false =>
      cases hconfident : assessor.minConfidence.le scores.conf.toDecimal with
      | false =>
        exact iff_of_true ⟨none, signalSide_belowConfidence hprob hconf hminConf hconfident⟩
          ⟨rfl, nofun⟩
      | true =>
        by_cases hnumbers : assessor.minEdge.isNan = false ∧ yes.isNan = false ∧ no.isNan = false
        · obtain ⟨hminEdge, hyes, hno⟩ := hnumbers
          exact iff_of_true ⟨_, signalSide_eq hprob hconf hminConf hconfident hminEdge hyes hno⟩
            ⟨rfl, fun _ => ⟨hminEdge, hyes, hno⟩⟩
        · refine iff_of_false ?_ fun h => hnumbers (h.2 rfl)
          rw [signalSide, hprob, hconf, compare_ok hminConf (toDecimal_isNan hconf).1, hconfident]
          cases hminEdge : assessor.minEdge.isNan with
          | true =>
            rw [compare_nan (.inl hminEdge)]
            exact fun ⟨_, h⟩ => nomatch h
          | false =>
            cases hyes : yes.isNan with
            | true =>
              rw [compare_nan (.inr hyes)]
              exact fun ⟨_, h⟩ => nomatch h
            | false =>
              -- the first comparison is over, and both that follow it meet the NO edge
              have hno : no.isNan = true := by
                by_contra hno
                exact hnumbers ⟨hminEdge, hyes, Bool.not_eq_true _ ▸ hno⟩
              rw [compare_ok hminEdge hyes, compare_nan (.inl hno), compare_nan (.inr hno)]
              cases assessor.minEdge.le yes <;> exact fun ⟨_, h⟩ => nomatch h
  · exact iff_of_true ⟨none, signalSide_outOfRange hunits⟩ fun hprob hconf =>
      absurd ⟨hprob, hconf⟩ hunits

theorem signalSide_some {side : Side} (h : signalSide assessor scores yes no = .ok (some side)) :
    scores.prob.inUnit = true ∧ scores.conf.inUnit = true ∧
      assessor.minConfidence.le scores.conf.toDecimal = true ∧
        BestEdge assessor side yes no := by
  have hgates := signalSide_ok_iff.mp ⟨_, h⟩
  by_cases hunits : scores.prob.inUnit = true ∧ scores.conf.inUnit = true
  · obtain ⟨hprob, hconf⟩ := hunits
    obtain ⟨hminConf, hnumbers⟩ := hgates hprob hconf
    cases hconfident : assessor.minConfidence.le scores.conf.toDecimal with
    | false => cases (signalSide_belowConfidence hprob hconf hminConf hconfident).symm.trans h
    | true =>
      obtain ⟨hminEdge, hyes, hno⟩ := hnumbers hconfident
      rw [signalSide_eq hprob hconf hminConf hconfident hminEdge hyes hno] at h
      refine ⟨hprob, hconf, rfl, ?_⟩
      split_ifs at h with hbest hedge
      · cases h
        exact Bool.and_eq_true_iff.mp hbest
      · cases h
        refine ⟨hedge, ?_⟩
        -- the YES edge is below the least edge, or below the NO edge
        rcases Decimal.total hyes hno with hle | hge
        · exact hle
        · rcases Decimal.total hyes hminEdge with hlow | hhigh
          · exact Decimal.le_of_le_of_le hlow hedge
          · exact absurd (Bool.and_eq_true_iff.mpr ⟨hhigh, hge⟩) hbest
      · cases h
  · cases (signalSide_outOfRange hunits).symm.trans h

theorem makeSignal_ok {item : Assessment} {side : Side} (hprob : scores.prob.inUnit = true)
    (hconf : scores.conf.inUnit = true) :
    ∃ signal, makeSignal assessor item scores side = .ok signal ∧
      signal.marketTicker = item.market.ticker ∧ signal.side = side ∧
      scores.prob.toDecimal = .finite signal.modelProbability ∧
      scores.conf.toDecimal = .finite signal.confidence := by
  obtain ⟨prob, conf, rationale⟩ := scores
  cases prob with
  | finite p hp =>
    cases conf with
    | finite c hc =>
      have hunits : (0 ≤ p ∧ p ≤ 1) ∧ (0 ≤ c ∧ c ≤ 1) :=
        ⟨of_decide_eq_true hprob, of_decide_eq_true hconf⟩
      refine ⟨_, dif_pos hunits, rfl, rfl, rfl, rfl⟩
    | _ => cases hconf
  | _ => cases hprob

theorem assessScores_ok {item : Assessment} {r : Option Signal} :
    assessScores assessor item scores yesAsk noAsk = .ok r ↔
      ∃ yes no side, defaultContext.sub scores.prob.toDecimal yesAsk = .ok yes ∧
        defaultContext.sub scores.prob.complement noAsk = .ok no ∧
        signalSide assessor scores yes no = .ok side ∧
        (∃ q, defaultContext.quantize (-4) yes = .ok q) ∧
        (∃ q, defaultContext.quantize (-4) no = .ok q) ∧
        (match side with
          | none => r = none
          | some side => ∃ signal, makeSignal assessor item scores side = .ok signal ∧
              r = some signal) := by
  unfold assessScores yesEdge
  simp only [noEdge_eq, bind_ok_iff, trapped_ok_iff]
  constructor
  · rintro ⟨yes, hyes, no, hno, side, hside, q, hq, q', hq', hr⟩
    refine ⟨yes, no, side, hyes, hno, hside, ⟨q, hq⟩, ⟨q', hq'⟩, ?_⟩
    cases side with
    | none => exact (Except.ok.inj hr).symm
    | some side =>
      obtain ⟨signal, hsignal, hr⟩ := bind_ok_iff.mp hr
      exact ⟨signal, hsignal, (Except.ok.inj hr).symm⟩
  · rintro ⟨yes, no, side, hyes, hno, hside, ⟨q, hq⟩, ⟨q', hq'⟩, hr⟩
    refine ⟨yes, hyes, no, hno, side, hside, q, hq, q', hq', ?_⟩
    cases side with
    | none =>
      subst hr
      rfl
    | some side =>
      obtain ⟨signal, hsignal, rfl⟩ := hr
      exact bind_ok_iff.mpr ⟨signal, hsignal, rfl⟩

theorem assessScores_ok_iff {item : Assessment} :
    (∃ r, assessScores assessor item scores yesAsk noAsk = .ok r) ↔
      ScoresFit assessor scores yesAsk noAsk := by
  have hfits : ∀ d f, (∃ r q, defaultContext.sub d f = .ok r ∧
      defaultContext.quantize (-4) r = .ok q) ↔ defaultContext.Fits (-4) d f := fun d f =>
    Decimal.quantize_sub_iff (by decide) (by decide)
  have hnans : ∀ yes no, defaultContext.sub scores.prob.toDecimal yesAsk = .ok yes →
      defaultContext.sub scores.prob.complement noAsk = .ok no → scores.prob.inUnit = true →
        yes.isNan = yesAsk.isNan ∧ no.isNan = noAsk.isNan := by
    intro yes no hyes hno hprob
    rw [Decimal.sub_isNan hyes, Decimal.sub_isNan hno, (toDecimal_isNan hprob).1,
      (toDecimal_isNan hprob).2]
    exact ⟨rfl, rfl⟩
  constructor
  · rintro ⟨r, hr⟩
    obtain ⟨yes, no, side, hyes, hno, hside, ⟨q, hq⟩, ⟨q', hq'⟩, _⟩ := assessScores_ok.mp hr
    refine ⟨(hfits _ _).mp ⟨yes, q, hyes, hq⟩, (hfits _ _).mp ⟨no, q', hno, hq'⟩, ?_⟩
    intro hprob hconf
    obtain ⟨hminConf, hnumbers⟩ := signalSide_ok_iff.mp ⟨side, hside⟩ hprob hconf
    obtain ⟨hyesNan, hnoNan⟩ := hnans yes no hyes hno hprob
    rw [hyesNan, hnoNan] at hnumbers
    exact ⟨hminConf, hnumbers⟩
  · intro h
    obtain ⟨yes, q, hyes, hq⟩ := (hfits _ _).mpr h.yes
    obtain ⟨no, q', hno, hq'⟩ := (hfits _ _).mpr h.no
    obtain ⟨side, hside⟩ : ∃ side, signalSide assessor scores yes no = .ok side := by
      rw [signalSide_ok_iff]
      intro hprob hconf
      obtain ⟨hyesNan, hnoNan⟩ := hnans yes no hyes hno hprob
      rw [hyesNan, hnoNan]
      exact h.gates hprob hconf
    cases side with
    | none =>
      exact ⟨none, assessScores_ok.mpr ⟨yes, no, none, hyes, hno, hside, ⟨q, hq⟩, ⟨q', hq'⟩, rfl⟩⟩
    | some side =>
      obtain ⟨hprob, hconf, _⟩ := signalSide_some hside
      obtain ⟨signal, hsignal, _⟩ := @makeSignal_ok assessor scores item side hprob hconf
      exact ⟨some signal, assessScores_ok.mpr
        ⟨yes, no, some side, hyes, hno, hside, ⟨q, hq⟩, ⟨q', hq'⟩, signal, hsignal, rfl⟩⟩

end Scored

section Round
variable {assessor : Assessor} {item : Assessment}

theorem mid_ok_iff {market : AssessedMarket} {yesAsk : Decimal}
    (hask : market.yesAskDollars = some (.decimal yesAsk)) :
    (∃ mid, market.mid = .ok mid) ↔ (PriceText.given market.yesBidDollars = true →
      ∃ bid, market.yesBidDollars = some (.decimal bid) ∧ defaultContext.Adds bid yesAsk) := by
  have hadds : ∀ bid, (∃ r, defaultContext.add bid yesAsk = .ok r) ↔
      defaultContext.Adds bid yesAsk := fun bid => Decimal.add_ok_iff (by decide)
  cases hgiven : PriceText.given market.yesBidDollars with
  | false =>
    rw [AssessedMarket.mid, hgiven]
    exact iff_of_true ⟨none, rfl⟩ nofun
  | true =>
    have hmid : market.mid = (do
        let bid ← PriceText.read market.yesBidDollars
        let total ← trapped (defaultContext.add bid yesAsk)
        let mid ← trapped (defaultContext.half total)
        return some mid) := by
      rw [AssessedMarket.mid, hgiven, hask]
      rfl
    simp only [hmid, bind_ok_iff, trapped_ok_iff, forall_const]
    constructor
    · rintro ⟨_, bid, hread, total, hadd, _⟩
      refine ⟨bid, ?_, (hadds bid).mp ⟨total, hadd⟩⟩
      unfold PriceText.read at hread
      split at hread
      · next d hbid => rw [hbid, Except.ok.inj hread]
      · cases hread
    · rintro ⟨bid, hbid, hadd⟩
      obtain ⟨total, hadd⟩ := (hadds bid).mpr hadd
      obtain ⟨mid, hhalf⟩ := Decimal.half_add_ok (by decide) hadd
      exact ⟨some mid, bid, by rw [hbid, PriceText.read], total, hadd, mid, hhalf, rfl⟩

theorem hoursToClose_ok_iff {market : AssessedMarket} {now : Time} :
    (∃ hours, market.hoursToClose now = .ok hours) ↔
      ∀ close ∈ market.closeTime, close.aware = true := by
  unfold AssessedMarket.hoursToClose
  cases market.closeTime with
  | none => exact iff_of_true ⟨_, rfl⟩ nofun
  | some close =>
    cases haware : close.aware <;> simp [haware]

theorem userPrompt_ok_iff {market : AssessedMarket} {now : Time} {yesAsk : Decimal}
    (hask : market.yesAskDollars = some (.decimal yesAsk)) :
    (∃ prompt, market.userPrompt now = .ok prompt) ↔ Promptable market yesAsk := by
  simp only [AssessedMarket.userPrompt, bind_ok_iff]
  constructor
  · rintro ⟨_, mid, hmid, hours, hhours, _⟩
    exact ⟨(mid_ok_iff hask).mp ⟨mid, hmid⟩, hoursToClose_ok_iff.mp ⟨hours, hhours⟩⟩
  · rintro ⟨hmid, hclose⟩
    obtain ⟨mid, hmid⟩ := (mid_ok_iff hask).mpr hmid
    obtain ⟨hours, hhours⟩ := (@hoursToClose_ok_iff market now).mpr hclose
    exact ⟨(mid, hours), mid, hmid, hours, hhours, rfl⟩

theorem read_ok_iff {price : Option PriceText} {d : Decimal} :
    PriceText.read price = .ok d ↔ price = some (.decimal d) := by
  unfold PriceText.read
  split
  · next e =>
    rw [Except.ok.injEq, Option.some.injEq, PriceText.decimal.injEq]
  · next hnone => exact iff_of_false nofun fun h => hnone d h

theorem assessReply_ok_iff {yesAsk noAsk : Decimal} :
    (∃ r, assessReply assessor item yesAsk noAsk = .ok r) ↔
      Answerable assessor yesAsk noAsk item.reply := by
  unfold assessReply
  cases item.reply with
  | error e =>
    cases e with
    | openRouter message => exact iff_of_true ⟨none, rfl⟩ trivial
    | raised e => exact iff_of_false (fun ⟨_, h⟩ => nomatch h) id
  | ok resp =>
    have hread := @readScores_badSchema_iff assessor resp
    rw [Answerable, ← hread]
    dsimp only
    cases readScores assessor resp with
    | error e =>
      cases hbad : e.badSchema with
      | true =>
        refine iff_of_true ⟨none, if_pos hbad⟩ ⟨fun e' h => ?_, nofun⟩
        rwa [← Except.error.inj h]
      | false =>
        refine iff_of_false ?_ fun h => absurd ((h.1 e rfl).symm.trans hbad) nofun
        rintro ⟨r, h⟩
        dsimp only at h
        rw [hbad, if_neg Bool.false_ne_true] at h
        cases h
    | ok scores =>
      rw [assessScores_ok_iff]
      constructor
      · exact fun h => ⟨nofun, fun scores' heq => Except.ok.inj heq ▸ h⟩
      · exact fun h => h.2 scores rfl

theorem assess_ok {r : Option Signal} : assess assessor item = .ok r ↔
    if item.market.active && (PriceText.given item.market.yesAskDollars &&
        PriceText.given item.market.noAskDollars) then
      ∃ yesAsk noAsk, item.market.yesAskDollars = some (.decimal yesAsk) ∧
        item.market.noAskDollars = some (.decimal noAsk) ∧
        (∃ prompt, item.market.userPrompt item.promptNow = .ok prompt) ∧
          assessReply assessor item yesAsk noAsk = .ok r
    else r = none := by
  unfold assess
  cases item.market.active with
  | false => simp [eq_comm]
  | true =>
    cases hgiven : PriceText.given item.market.yesAskDollars &&
        PriceText.given item.market.noAskDollars with
    | false => simp [eq_comm]
    | true =>
      simp only [Bool.not_true, Bool.false_eq_true, if_false, Bool.and_self, if_true, bind_ok_iff,
        read_ok_iff]
      constructor
      · rintro ⟨yesAsk, hyes, noAsk, hno, prompt, hprompt, hr⟩
        exact ⟨yesAsk, noAsk, hyes, hno, ⟨prompt, hprompt⟩, hr⟩
      · rintro ⟨yesAsk, noAsk, hyes, hno, ⟨prompt, hprompt⟩, hr⟩
        exact ⟨yesAsk, hyes, noAsk, hno, prompt, hprompt, hr⟩

theorem assess_ok_iff : (∃ r, assess assessor item = .ok r) ↔ Assessable assessor item := by
  simp only [assess_ok]
  unfold Assessable
  by_cases hgiven : item.market.active = true ∧ PriceText.given item.market.yesAskDollars = true ∧
      PriceText.given item.market.noAskDollars = true
  · obtain ⟨hactive, hyes, hno⟩ := hgiven
    simp only [hactive, hyes, hno, Bool.and_self, if_true, forall_const]
    constructor
    · rintro ⟨r, yesAsk, noAsk, hyesAsk, hnoAsk, hprompt, hr⟩
      exact ⟨yesAsk, noAsk, hyesAsk, hnoAsk, (userPrompt_ok_iff hyesAsk).mp hprompt,
        assessReply_ok_iff.mp ⟨r, hr⟩⟩
    · rintro ⟨yesAsk, noAsk, hyesAsk, hnoAsk, hprompt, hreply⟩
      obtain ⟨r, hr⟩ := assessReply_ok_iff.mpr hreply
      exact ⟨r, yesAsk, noAsk, hyesAsk, hnoAsk, (userPrompt_ok_iff hyesAsk).mpr hprompt, hr⟩
  · refine iff_of_true ⟨none, ?_⟩ fun hactive hyes hno => absurd ⟨hactive, hyes, hno⟩ hgiven
    rw [if_neg]
    simpa only [Bool.and_eq_true] using hgiven

theorem assess_sound {signal : Signal} (h : assess assessor item = .ok (some signal)) :
    SoundFor assessor item signal := by
  rw [assess_ok] at h
  split_ifs at h
  · obtain ⟨yesAsk, noAsk, hyesAsk, hnoAsk, _, hreply⟩ := h
    unfold assessReply at hreply
    split at hreply
    · cases hreply
    · cases hreply
    · split at hreply
      · split_ifs at hreply
        cases hreply
      · next scores _ =>
        obtain ⟨yes, no, side, hyes, hno, hside, _, _, hsignal⟩ := assessScores_ok.mp hreply
        cases side with
        | none => cases hsignal
        | some side =>
          obtain ⟨hprob, hconf, hconfident, hbest⟩ := signalSide_some hside
          obtain ⟨made, hmade, hticker, hmadeSide, hmadeProb, hmadeConf⟩ :=
            @makeSignal_ok assessor scores item side hprob hconf
          obtain ⟨signal', hsignal', hsome⟩ := hsignal
          cases hsignal'.symm.trans hmade
          cases hsome
          refine ⟨hticker, signal.modelProbability_mem, signal.confidence_mem, hmadeConf ▸ hconfident,
            scores.prob, yesAsk, noAsk, yes, no, hmadeProb, hyesAsk, hnoAsk, ?_, ?_,
            hmadeSide ▸ hbest⟩
          · exact trapped_ok_iff.mpr hyes
          · rw [noEdge_eq]
            exact trapped_ok_iff.mpr hno

end Round

section Tick
variable {assessor : Assessor}

theorem alone_eq (assessor : Assessor) (item : Assessment) : alone assessor item =
    match assess assessor item with
    | .ok signal => signal.toList
    | .error _ => [] := by
  unfold alone generateSignals
  cases assess assessor item with
  | error e => rfl
  | ok signal => exact List.append_nil _

theorem generateSignals_ok_iff {items : List Assessment} {signals : List Signal} :
    generateSignals assessor items = .ok signals ↔
      (∀ item ∈ items, ∃ r, assess assessor item = .ok r) ∧
        signals = items.flatMap (alone assessor) := by
  induction items generalizing signals with
  | nil => simp [generateSignals, eq_comm]
  | cons item items ih =>
    rw [generateSignals, bind_ok_iff, List.forall_mem_cons, List.flatMap_cons]
    constructor
    · rintro ⟨signal, hsignal, hrest⟩
      obtain ⟨rest, hrest, heq⟩ := bind_ok_iff.mp hrest
      obtain ⟨hall, rfl⟩ := ih.mp hrest
      refine ⟨⟨⟨signal, hsignal⟩, hall⟩, ?_⟩
      rw [alone_eq, hsignal]
      exact (Except.ok.inj heq).symm
    · rintro ⟨⟨⟨signal, hsignal⟩, hall⟩, rfl⟩
      refine ⟨signal, hsignal, bind_ok_iff.mpr ⟨_, ih.mpr ⟨hall, rfl⟩, ?_⟩⟩
      rw [alone_eq, hsignal]
      rfl

theorem alone_sound {item : Assessment} {signal : Signal} (h : signal ∈ alone assessor item) :
    SoundFor assessor item signal := by
  rw [alone_eq] at h
  cases hassess : assess assessor item with
  | error e =>
    rw [hassess] at h
    exact absurd h List.not_mem_nil
  | ok r =>
    rw [hassess] at h
    obtain rfl := Option.mem_toList.mp h
    exact assess_sound hassess

end Tick

/-- A tick gives the signals of each market alone exactly when nothing leaves the round of one. -/
theorem independent_iff (assessor : Assessor) (items : List Assessment) :
    Independent assessor items ↔ ∀ item ∈ items, Assessable assessor item := by
  constructor
  · intro h item hitem
    exact assess_ok_iff.mp ((generateSignals_ok_iff.mp h.signals).1 item hitem)
  · intro h
    refine ⟨generateSignals_ok_iff.mpr ⟨fun item hitem => ?_, rfl⟩, fun item _ signal hsignal => ?_⟩
    · exact assess_ok_iff.mpr (h item hitem)
    · exact alone_sound hsignal

def plainAssessor : Assessor where
  minEdge := .finite (4 / 100)
  minConfidence := .finite (6 / 10)
  ttl := 300000000
  reads := ⟨fun n => if n = 0 then some .zero else if n = 1 then some .one else none, fun _ => none⟩
  text _ := ""

def halfMarket (ticker : Ticker) : AssessedMarket where
  ticker := ticker
  status := some "active"
  yesBidDollars := some (.decimal (.finite (49 / 100)))
  yesAskDollars := some (.decimal (.finite (50 / 100)))
  noAskDollars := some (.decimal (.finite (50 / 100)))
  closeTime := none

def scored (ticker : Ticker) (prob : PyFloat) : Assessment where
  market := halfMarket ticker
  promptNow := 0
  reply := .ok (.obj [("probability", .float prob), ("confidence", .float .one)])
  signalNow := 0

/-- A market with an edge alone has its signal; with a market after it whose probability is infinite
the tick has none. -/
theorem not_independent_infinity :
    (alone plainAssessor (scored "FOO" .one)).length = 1 ∧
      ¬ Independent plainAssessor [scored "FOO" .one, scored "BAR" .posInf] := by
  refine ⟨by decide +kernel, fun h => ?_⟩
  have hraises : (generateSignals plainAssessor
      [scored "FOO" .one, scored "BAR" .posInf]).isOk = false := by decide +kernel
  rw [h.signals] at hraises
  cases hraises

end KalshiAgent
