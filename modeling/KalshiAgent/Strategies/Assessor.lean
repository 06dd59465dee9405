import KalshiAgent.Execution.Executor
import KalshiAgent.Lib.Decimal
import KalshiAgent.Llm.OpenRouter

/-! The LLM assessor: from the markets of a tick and the answer that comes for each to the signals.
Prices, floats and decimals are those of Python, infinities and NaNs among them, and every
conversion ends in the exceptions that it has there. -/

namespace KalshiAgent

inductive PriceText
  | empty
  | invalid
  | decimal (d : Decimal)

structure CloseTime where
  time : Time
  -- the text it was parsed from has a zone
  aware : Bool

structure AssessedMarket where
  ticker : Ticker
  status : Option String
  yesBidDollars : Option PriceText
  yesAskDollars : Option PriceText
  noAskDollars : Option PriceText
  closeTime : Option CloseTime

/-- A market with what it meets: the readings of the clock and how `chat_json` ends. -/
structure Assessment where
  market : AssessedMarket
  promptNow : Time
  reply : Except ChatError Json
  signalNow : Time

structure Assessor where
  minEdge : Decimal
  minConfidence : Decimal
  ttl : Time
  reads : FloatReads
  -- `str` of a decoded value
  text : Json → String

def strategyName : String := "llm_market_assessor"

def defaultContext : Decimal.Context where
  prec := 28
  eTiny := -1000026
  eMax := 999999
  prec_pos := by decide
  eTiny_nonpos := by decide
  eMax_nonneg := by decide

def trapped {α : Type} : Except Decimal.Trap α → Except PyError α
  | .ok a => .ok a
  | .error .invalidOperation => .error .invalidOperation
  | .error .overflow => .error .overflow

def PriceText.given : Option PriceText → Bool
  | none => false
  | some .empty => false
  | some _ => true

def PriceText.read : Option PriceText → Except PyError Decimal
  | some (.decimal d) => .ok d
  | _ => .error .invalidOperation

def PyFloat.toDecimal : PyFloat → Decimal
  | .finite x _ => .finite x
  | .posInf => .infinite false
  | .negInf => .infinite true
  | .nan => .nan

def PyFloat.inUnit : PyFloat → Bool
  | .finite x _ => 0 ≤ x ∧ x ≤ 1
  | _ => false

namespace AssessedMarket

def active (market : AssessedMarket) : Bool :=
  (market.status.getD "").toLower ∈ ["active", "open"]

def mid (market : AssessedMarket) : Except PyError (Option Decimal) :=
  if PriceText.given market.yesBidDollars && PriceText.given market.yesAskDollars then do
    let bid ← PriceText.read market.yesBidDollars
    let ask ← PriceText.read market.yesAskDollars
    let total ← trapped (defaultContext.add bid ask)
    let mid ← trapped (defaultContext.half total)
    return some mid
  else return none

/-- The hours to the close, when it is ahead. A naive time is not subtracted from an aware one. -/
def hoursToClose (market : AssessedMarket) (now : Time) : Except PyError (Option ℚ) :=
  match market.closeTime with
  | none => .ok none
  | some close =>
    if close.aware then
      .ok (if now < close.time then some ((close.time - now : ℤ) / 3600000000) else none)
    else .error .typeError

def userPrompt (market : AssessedMarket) (now : Time) :
    Except PyError (Option Decimal × Option ℚ) := do
  let mid ← market.mid
  let hours ← market.hoursToClose now
  return (mid, hours)

end AssessedMarket

structure Scores where
  prob : PyFloat
  conf : PyFloat
  rationale : String

def readScores (assessor : Assessor) (resp : Json) : Except PyError Scores := do
  let prob ← (← resp.item "probability").toFloat assessor.reads
  let conf ← (← resp.item "confidence").toFloat assessor.reads
  match resp with
  | .obj fields =>
    let rationale := assessor.text ((fields.lookup "rationale").getD (.str ""))
    return ⟨prob, conf, (rationale.take 500).copy⟩
  | _ => .error .attributeError

/-- KeyError, TypeError and ValueError, which the reading of an answer is guarded against. -/
def PyError.badSchema : PyError → Bool
  | .keyError => true
  | .typeError => true
  | .valueError => true
  | .jsonDecodeError => true
  | _ => false

def yesEdge (prob : PyFloat) (yesAsk : Decimal) : Except PyError Decimal :=
  trapped (defaultContext.sub prob.toDecimal yesAsk)

def noEdge (prob : PyFloat) (noAsk : Decimal) : Except PyError Decimal := do
  let complement ← trapped (defaultContext.sub (.finite 1) prob.toDecimal)
  trapped (defaultContext.sub complement noAsk)

def signalSide (assessor : Assessor) (scores : Scores) (yesEdge noEdge : Decimal) :
    Except PyError (Option Side) :=
  if scores.prob.inUnit && scores.conf.inUnit then do
    let confident ← trapped (assessor.minConfidence.compareLe scores.conf.toDecimal)
    if confident then
      let yes ← trapped (assessor.minEdge.compareLe yesEdge)
      let yes ← if yes then trapped (noEdge.compareLe yesEdge) else .ok false
      if yes then return some .yes
      let no ← trapped (assessor.minEdge.compareLe noEdge)
      return if no then some .no else none
    else return none
  else return none

/-- `Signal(...)`, whose validator keeps both numbers between 0 and 1. -/
def makeSignal (assessor : Assessor) (item : Assessment) (scores : Scores) (side : Side) :
    Except PyError Signal :=
  match scores.prob, scores.conf with
  | .finite prob _, .finite conf _ =>
    if h : (0 ≤ prob ∧ prob ≤ 1) ∧ (0 ≤ conf ∧ conf ≤ 1) then
      .ok ⟨item.market.ticker, side, prob, conf, scores.rationale, item.signalNow + assessor.ttl,
        strategyName, h.1, h.2⟩
    else .error .valueError
  | _, _ => .error .valueError

def assessScores (assessor : Assessor) (item : Assessment) (scores : Scores)
    (yesAsk noAsk : Decimal) : Except PyError (Option Signal) := do
  let yesEdge ← yesEdge scores.prob yesAsk
  let noEdge ← noEdge scores.prob noAsk
  let side ← signalSide assessor scores yesEdge noEdge
  -- `round(yes_edge, 4)` and `round(no_edge, 4)`, for the log
  let _ ← trapped (defaultContext.quantize (-4) yesEdge)
  let _ ← trapped (defaultContext.quantize (-4) noEdge)
  match side with
  | none => return none
  | some side => return some (← makeSignal assessor item scores side)

def assessReply (assessor : Assessor) (item : Assessment) (yesAsk noAsk : Decimal) :
    Except PyError (Option Signal) :=
  match item.reply with
  | .error (.openRouter _) => .ok none
  | .error (.raised e) => .error e
  | .ok resp =>
    match readScores assessor resp with
    | .error e => if e.badSchema then .ok none else .error e
    | .ok scores => assessScores assessor item scores yesAsk noAsk

def assess (assessor : Assessor) (item : Assessment) : Except PyError (Option Signal) :=
  if !item.market.active then .ok none
  else if !(PriceText.given item.market.yesAskDollars && PriceText.given item.market.noAskDollars) then
    .ok none
  else do
    let yesAsk ← PriceText.read item.market.yesAskDollars
    let noAsk ← PriceText.read item.market.noAskDollars
    let _ ← item.market.userPrompt item.promptNow
    assessReply assessor item yesAsk noAsk

/-- `generate_signals`, over the markets that `_resolve_markets` gives. -/
def generateSignals (assessor : Assessor) : List Assessment → Except PyError (List Signal)
  | [] => .ok []
  | item :: items => do
    let signal ← assess assessor item
    let signals ← generateSignals assessor items
    return signal.toList ++ signals

end KalshiAgent
