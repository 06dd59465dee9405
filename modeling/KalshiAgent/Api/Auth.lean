import KalshiAgent.Lib.Splitting
import KalshiAgent.Lib.Text
import KalshiAgent.Llm.Json

/-! Who may call a route. The control routes ask for a bearer token; the observer routes ask for
the same one, except of a client on this host. -/

namespace KalshiAgent
open Splitting

structure Caller where
  client : Option String
  authorization : Option String
  deriving DecidableEq

inductive HttpError
  | unauthorized (detail : String)
  -- what a dependency or a route lets through: 500
  | raised (e : PyError)
  deriving DecidableEq

def bearer (authorization : Option String) : Option String :=
  match authorization with
  | none => none
  | some text =>
    if text = "" then none
    else
      match splitOnce isSpace text.toList with
      | [scheme, rest] =>
        if lower (String.ofList scheme) ≠ "bearer" then none
        else some (String.ofList (trim isSpace rest))
      | _ => none

def isLocalhost (caller : Caller) : Bool :=
  match caller.client with
  | none => false
  | some host => host ∈ ["127.0.0.1", "::1", "localhost"]

def isAscii (text : String) : Bool := text.toList.all (fun c => c.toNat < 128)

def compareDigest (a b : String) : Except PyError Bool :=
  if isAscii a ∧ isAscii b then .ok (a = b) else .error .typeError

def requireToken (detail expectedToken : String) (caller : Caller) : Except HttpError Unit :=
  match bearer caller.authorization with
  | none => .error (.unauthorized detail)
  | some token =>
    match compareDigest token expectedToken with
    | .error e => .error (.raised e)
    | .ok false => .error (.unauthorized detail)
    | .ok true => .ok ()

def requireControlAuth (expectedToken : String) (caller : Caller) : Except HttpError Unit :=
  requireToken "invalid bearer token" expectedToken caller

def requireObserverAuth (expectedToken : String) (caller : Caller) : Except HttpError Unit :=
  if isLocalhost caller then .ok ()
  else requireToken "bearer token required for remote access" expectedToken caller

/-- A header of the scheme and the token, with blanks between and around them. -/
def PresentsBearer (header token : String) : Prop :=
  ∃ scheme, lower (String.ofList scheme) = "bearer" ∧
    Presents isSpace header.toList scheme token.toList

theorem PresentsBearer.ne_empty {header token : String} (h : PresentsBearer header token) :
    header ≠ "" := by
  obtain ⟨scheme, -, hpresents⟩ := h
  obtain ⟨before, gap, after, htext, -, hgap, -⟩ := hpresents.ex
  rintro rfl
  have hnil : ([] : List Char) = before ++ scheme ++ gap ++ token.toList ++ after := htext
  simp [hgap] at hnil

theorem bearer_iff (header token : String) :
    bearer (some header) = some token ↔ PresentsBearer header token := by
  unfold bearer PresentsBearer
  dsimp only
  constructor
  · intro h
    split_ifs at h
    split at h
    next scheme rest hsplit =>
      split_ifs at h with hscheme
      refine ⟨scheme, not_not.mp hscheme, ?_⟩
      rw [← Option.some.inj h, String.toList_ofList]
      exact presents_of_splitOnce hsplit
    next => cases h
  · intro h
    have hne := PresentsBearer.ne_empty h
    obtain ⟨scheme, hscheme, hpresents⟩ := h
    obtain ⟨rest, hsplit, htrim⟩ := splitOnce_of_presents hpresents
    rw [if_neg hne, hsplit]
    dsimp only
    rw [if_neg (not_not.mpr hscheme), htrim, String.ofList_toList]

theorem compareDigest_eq_true {a b : String} :
    compareDigest a b = .ok true ↔ a = b ∧ isAscii b = true := by
  unfold compareDigest
  constructor
  · intro h
    split_ifs at h with hascii
    exact ⟨of_decide_eq_true (Except.ok.inj h), hascii.2⟩
  · rintro ⟨rfl, hascii⟩
    rw [if_pos ⟨hascii, hascii⟩, decide_eq_true rfl]

theorem requireToken_eq_ok (detail expectedToken : String) (caller : Caller) :
    requireToken detail expectedToken caller = .ok () ↔
      isAscii expectedToken = true ∧
        ∃ header, caller.authorization = some header ∧ PresentsBearer header expectedToken := by
  unfold requireToken
  constructor
  · intro h
    split at h
    next => cases h
    next token htoken =>
      split at h
      next => cases h
      next => cases h
      next hequal =>
        obtain ⟨rfl, hascii⟩ := compareDigest_eq_true.mp hequal
        refine ⟨hascii, ?_⟩
        cases hheader : caller.authorization with
        | none =>
          rw [hheader] at htoken
          cases htoken
        | some header =>
          rw [hheader] at htoken
          exact ⟨header, rfl, (bearer_iff header token).mp htoken⟩
  · rintro ⟨hascii, header, hheader, hpresents⟩
    have hequal := compareDigest_eq_true.mpr ⟨rfl, hascii⟩
    rw [hheader, (bearer_iff header expectedToken).mpr hpresents]
    dsimp only
    rw [hequal]

theorem requireObserverAuth_eq_ok (expectedToken : String) (caller : Caller) :
    requireObserverAuth expectedToken caller = .ok () ↔
      isLocalhost caller = true ∨ requireControlAuth expectedToken caller = .ok () := by
  unfold requireObserverAuth requireControlAuth
  split_ifs with hlocal
  · exact ⟨fun _ => .inl hlocal, fun _ => rfl⟩
  · rw [requireToken_eq_ok, requireToken_eq_ok]
    exact ⟨.inr, fun h => h.resolve_left hlocal⟩

theorem PresentsBearer.trimmed {header token : String} (h : PresentsBearer header token) :
    trim isSpace token.toList = token.toList ∧ token ≠ "" := by
  obtain ⟨scheme, -, hpresents⟩ := h
  refine ⟨trim_eq_self hpresents.opens hpresents.closes, ?_⟩
  rintro rfl
  exact hpresents.part_ne rfl

/-- A control route is open to exactly those that present the token, wherever they call from; an
observer route is open to these and to this host. A token that is empty, that is not ASCII or that
has blanks around it opens no control route at all. -/
theorem guards_open_iff (expectedToken : String) (caller : Caller) :
    (requireControlAuth expectedToken caller = .ok () ↔
      isAscii expectedToken = true ∧
        ∃ header, caller.authorization = some header ∧ PresentsBearer header expectedToken) ∧
    (requireObserverAuth expectedToken caller = .ok () ↔
      isLocalhost caller = true ∨ requireControlAuth expectedToken caller = .ok ()) ∧
    (trim isSpace expectedToken.toList ≠ expectedToken.toList ∨ expectedToken = "" ∨
      isAscii expectedToken = false → requireControlAuth expectedToken caller ≠ .ok ()) := by
  refine ⟨requireToken_eq_ok _ _ _, requireObserverAuth_eq_ok _ _, fun hunusable hopen => ?_⟩
  obtain ⟨hascii, header, -, hpresents⟩ := (requireToken_eq_ok _ _ _).mp hopen
  obtain ⟨htrim, hne⟩ := hpresents.trimmed
  rcases hunusable with hblank | hempty | hforeign
  · exact hblank htrim
  · exact hne hempty
  · rw [hascii] at hforeign
    cases hforeign

end KalshiAgent
