import KalshiAgent.Kalshi.Types

/-! The exchange client: the exceptions a call can raise, and the request loop with its retries
as a machine that stops at every await. -/

namespace KalshiAgent

inductive ClientError
  -- KalshiAPIError(status_code, body)
  | api (statusCode : ℕ) (body : String)
  -- KalshiAuthError
  | auth (message : String)
  -- every other exception, an httpx.HTTPError or a ValidationError among them
  | other (message : String)
  deriving DecidableEq

def ClientError.text : ClientError → String
  | .api statusCode body => "Kalshi API " ++ toString statusCode ++ ": " ++ body.take 200
  | .auth message => message
  | .other message => message

inductive Sleep
  | wakes
  | neverWakes
  | raises (message : String)
  deriving DecidableEq

inductive FloatText
  | finite
  | posInf
  | negInf
  | nan
  | invalid

/-- The sleep after a 429, `float(headers.get("retry-after", 1.0)) + 0.5` seconds. A NaN delay is
over at once, or is refused by `asyncio.sleep` from Python 3.13 on. -/
def retryAfterSleep (refusesNan : Bool) : Option FloatText → Sleep
  | none => .wakes
  | some .finite => .wakes
  | some .negInf => .wakes
  | some .posInf => .neverWakes
  | some .nan => if refusesNan then .raises "Invalid delay: NaN (not a number)" else .wakes
  | some .invalid => .raises "could not convert string to float"

/-- The sleep of `2**attempt` seconds: the event loop adds an int to a float. -/
def backOffSleep (attempt : ℕ) : Sleep :=
  if attempt < 1024 then .wakes else .raises "int too large to convert to float"

/-- How one HTTP request ends: with an exception, or with a response, the sleep its retry-after
header asks for and what its body reads as. -/
inductive HttpReply (β : Type)
  | httpError (message : String)
  | response (statusCode : ℕ) (text : String) (retryAfter : Sleep) (body : Except ClientError β)

def maxRetries : ℕ := 3

/-- Where the loop of `_request` waits: for a token, for the response to what it has just
transmitted, for a back-off to pass, or for one that never does. -/
inductive RequestPhase (β : Type)
  | acquiring (attempt : ℕ) (lastExc : Option ClientError)
  | awaiting (attempt : ℕ) (lastExc : Option ClientError)
  | backingOff (attempt : ℕ) (lastExc : Option ClientError)
  | asleep (attempt : ℕ)
  | finished (outcome : Except ClientError β)

namespace RequestPhase
variable {β : Type}

def start : RequestPhase β := .acquiring 0 none

def pause (attempt : ℕ) (lastExc : Option ClientError) : Sleep → RequestPhase β
  | .wakes => .backingOff attempt lastExc
  | .neverWakes => .asleep attempt
  | .raises message => .finished (.error (.other message))

def onReply (attempt : ℕ) (lastExc : Option ClientError) : HttpReply β → RequestPhase β
  | .httpError message => pause attempt (some (.other message)) (backOffSleep attempt)
  | .response statusCode text retryAfter body =>
    if statusCode = 429 then pause attempt lastExc retryAfter
    else if 500 ≤ statusCode ∧ statusCode < 600 then
      pause attempt (some (.api statusCode text)) (backOffSleep attempt)
    else if statusCode = 401 ∨ statusCode = 403 then
      .finished (.error (.auth (toString statusCode ++ ": " ++ text.take 200)))
    else if 400 ≤ statusCode then .finished (.error (.api statusCode text))
    else .finished body

def exhausted (lastExc : Option ClientError) : ClientError :=
  lastExc.getD (.api 0 "exhausted retries")

def onWake (attempt : ℕ) (lastExc : Option ClientError) : RequestPhase β :=
  if attempt + 1 < maxRetries then .acquiring (attempt + 1) lastExc
  else .finished (.error (exhausted lastExc))

def sent : RequestPhase β → ℕ
  | .acquiring attempt _ => attempt
  | .awaiting attempt _ => attempt + 1
  | .backingOff attempt _ => attempt + 1
  | .asleep attempt => attempt + 1
  | .finished _ => 0

end RequestPhase

end KalshiAgent
