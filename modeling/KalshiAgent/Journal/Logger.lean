import KalshiAgent.Lib.Redaction
import KalshiAgent.Lib.Text

/-! The redaction of log events: values under secret keys are replaced whole, webhook URLs inside the
strings that remain. -/

namespace KalshiAgent

/-- The value of a log event. `σ` are the values that `_redact` does not look into. -/
inductive LogValue (σ : Type)
  | dict (entries : List (String × LogValue σ))
  | list (items : List (LogValue σ))
  | str (text : String)
  | other (scalar : σ)

def secretKeys : List String :=
  ["authorization", "api_key", "api_key_id", "private_key", "private_key_path", "webhook_url",
    "discord_webhook_url", "control_bearer_token", "bearer_token", "kalshi-access-key",
    "kalshi-access-signature"]

def isSecret (k : String) : Bool := lower k ∈ secretKeys

def redacted : String := "***REDACTED***"

def discordPrefix : String := "https://discord.com/api/webhooks/"

def discordappPrefix : String := "https://discordapp.com/api/webhooks/"

def isUrlChar (c : Char) : Bool := !isSpace c && c.toNat ≠ 0x22 && c.toNat ≠ 0x27

theorem prefixes_isUrlChar :
    [discordPrefix.toList, discordappPrefix.toList].all (·.all isUrlChar) = true := by
  decide +kernel

theorem replacement_isUrlChar :
    (discordPrefix.toList ++ redacted.toList).all isUrlChar = true := by
  decide +kernel

/-- `_WEBHOOK_RE` and what it is replaced by. A match ends where the URL's characters end, as the
prefixes hold no others. -/
def webhookRe : Redaction.Pattern Char where
  inToken := isUrlChar
  openings := [discordPrefix.toList, discordappPrefix.toList]
  replacement := discordPrefix.toList ++ redacted.toList
  openings_inToken p hp := List.all_eq_true.mp (List.all_eq_true.mp prefixes_isUrlChar p hp)
  replacement_inToken := List.all_eq_true.mp replacement_isUrlChar
  not_opens_inside := by decide +kernel
  no_overlap := by decide +kernel

def subWebhooks (text : String) : String := String.ofList (webhookRe.sub false text.toList)

namespace LogValue
variable {σ : Type}

mutual

def scrub : LogValue σ → LogValue σ
  | .dict entries => .dict (scrubEntries entries)
  | .list items => .list (scrubItems items)
  | .str text => .str (subWebhooks text)
  | .other scalar => .other scalar

def scrubEntries : List (String × LogValue σ) → List (String × LogValue σ)
  | [] => []
  | (k, v) :: rest => (k, if isSecret k then .str redacted else scrub v) :: scrubEntries rest

def scrubItems : List (LogValue σ) → List (LogValue σ)
  | [] => []
  | v :: rest => scrub v :: scrubItems rest

end

/-- The way from a value to one inside it: a key of a dict, or a position in a list. -/
inductive Step
  | key (k : String)
  | item (i : ℕ)

def Step.isSecret : Step → Bool
  | .key k => KalshiAgent.isSecret k
  | .item _ => false

def child : LogValue σ → Step → Option (LogValue σ)
  | .dict entries, .key k => entries.lookup k
  | .list items, .item i => items[i]?
  | _, _ => none

def at? (v : LogValue σ) : List Step → Option (LogValue σ)
  | [] => some v
  | step :: path => (v.child step).bind (fun w => w.at? path)

/-- What a value is, apart from the values inside it and from the text of a string. -/
inductive Shape (σ : Type)
  | dict (keys : List String)
  | list (length : ℕ)
  | str
  | other (scalar : σ)

def shape : LogValue σ → Shape σ
  | .dict entries => .dict (entries.map Prod.fst)
  | .list items => .list items.length
  | .str _ => .str
  | .other scalar => .other scalar

end LogValue

/-- A webhook URL: one of the two prefixes with a token after it. -/
def HasWebhook (text : String) : Prop :=
  ∃ p ∈ [discordPrefix, discordappPrefix], ∃ u c v, text.toList = u ++ p.toList ++ c :: v ∧
    isUrlChar c = true

/-- Behind a prefix the text ends, or comes whitespace, a quote or the placeholder. -/
def NoWebhook (text : String) : Prop :=
  ∀ p ∈ [discordPrefix, discordappPrefix], ∀ u v, text.toList = u ++ p.toList ++ v →
    v.takeWhile isUrlChar = [] ∨ (p = discordPrefix ∧ v.takeWhile isUrlChar = redacted.toList)

theorem opens_webhookRe {p : String} (hp : p ∈ [discordPrefix, discordappPrefix]) {c : Char}
    (hc : isUrlChar c = true) (v : List Char) :
    Redaction.opens webhookRe.inToken webhookRe.openings (p.toList ++ c :: v) = true := by
  have hmem : p.toList ∈ webhookRe.openings := List.mem_map_of_mem (f := String.toList) hp
  apply Redaction.Pattern.opens_iff.mpr
  refine ⟨p.toList, hmem, c, hc, ?_⟩
  rw [List.prefix_append_right_inj]
  exact List.prefix_append [c] v

theorem noWebhook_of_clean {text : String} (h : webhookRe.Clean text.toList) : NoWebhook text := by
  intro p hp u v htext
  cases v with
  | nil => exact .inl rfl
  | cons c v =>
    by_cases hc : isUrlChar c = true
    · right
      have hsuffix : p.toList ++ c :: v <:+ text.toList := by
        rw [htext, List.append_assoc]
        exact List.suffix_append u _
      have htoken : (p.toList ++ c :: v).takeWhile isUrlChar = discordPrefix.toList ++ redacted.toList :=
        h _ hsuffix (opens_webhookRe hp hc v)
      have hurl : ∀ a ∈ p.toList, isUrlChar a = true :=
        webhookRe.openings_inToken _ (List.mem_map_of_mem (f := String.toList) hp)
      rw [List.takeWhile_append_of_pos hurl] at htoken
      rcases List.mem_pair.mp hp with rfl | rfl
      · exact ⟨rfl, List.append_cancel_left htoken⟩
      · have hprefix : discordappPrefix.toList <+: discordPrefix.toList ++ redacted.toList := ⟨_, htoken⟩
        exact absurd hprefix (by decide +kernel)
    · exact .inl (List.takeWhile_cons_of_neg hc)

theorem noWebhook_subWebhooks (text : String) : NoWebhook (subWebhooks text) := by
  apply noWebhook_of_clean
  rw [subWebhooks, String.toList_ofList]
  exact Redaction.Pattern.clean_sub text.toList false

theorem subWebhooks_subWebhooks (text : String) :
    subWebhooks (subWebhooks text) = subWebhooks text := by
  unfold subWebhooks
  rw [String.toList_ofList, Redaction.Pattern.sub_sub]

theorem subWebhooks_of_not_hasWebhook {text : String} (h : ¬ HasWebhook text) :
    subWebhooks text = text := by
  have hclean : webhookRe.Clean text.toList := by
    rintro w ⟨u, htext⟩ hopens
    obtain ⟨p, hp, c, hc, v, rfl⟩ := Redaction.Pattern.opens_iff.mp hopens
    have hopenings : webhookRe.openings = [discordPrefix, discordappPrefix].map String.toList := rfl
    rw [hopenings] at hp
    obtain ⟨q, hq, rfl⟩ := List.mem_map.mp hp
    refine absurd ⟨q, hq, u, c, v, ?_, hc⟩ h
    rw [← htext, List.append_assoc, List.append_assoc]
    rfl
  unfold subWebhooks
  rw [(Redaction.Pattern.sub_of_clean hclean).1, String.ofList_toList]

theorem noWebhook_redacted : NoWebhook redacted := by
  have hself : subWebhooks redacted = redacted := by decide +kernel
  exact hself ▸ noWebhook_subWebhooks redacted

namespace LogValue
variable {σ : Type}

theorem scrubItems_eq_map (items : List (LogValue σ)) : scrubItems items = items.map scrub := by
  induction items with
  | nil => rfl
  | cons v rest ih =>
    rw [scrubItems, ih]
    rfl

theorem lookup_scrubEntries (entries : List (String × LogValue σ)) (k : String) :
    (scrubEntries entries).lookup k =
      (entries.lookup k).map (fun v => if isSecret k then .str redacted else v.scrub) := by
  induction entries with
  | nil => rfl
  | cons entry rest ih =>
    obtain ⟨k', v⟩ := entry
    rw [scrubEntries, List.lookup_cons, List.lookup_cons, ih]
    by_cases hk : k = k'
    · subst hk
      rw [beq_self_eq_true]
      rfl
    · rw [beq_false_of_ne hk]

theorem map_fst_scrubEntries (entries : List (String × LogValue σ)) :
    (scrubEntries entries).map Prod.fst = entries.map Prod.fst := by
  induction entries with
  | nil => rfl
  | cons entry rest ih =>
    rw [scrubEntries, List.map_cons, ih]
    rfl

theorem child_scrub (v : LogValue σ) (step : Step) :
    v.scrub.child step =
      (v.child step).map (fun w => if step.isSecret then .str redacted else w.scrub) := by
  cases v with
  | dict entries =>
    cases step with
    | key k => exact lookup_scrubEntries entries k
    | item i => rfl
  | list items =>
    cases step with
    | key k => rfl
    | item i =>
      show (scrubItems items)[i]? = items[i]?.map scrub
      rw [scrubItems_eq_map, List.getElem?_map]
  | str text => cases step <;> rfl
  | other scalar => cases step <;> rfl

theorem at?_append (v : LogValue σ) (path rest : List Step) :
    v.at? (path ++ rest) = (v.at? path).bind (fun w => w.at? rest) := by
  induction path generalizing v with
  | nil => rfl
  | cons step path ih =>
    rw [List.cons_append, at?, at?]
    cases v.child step with
    | none => rfl
    | some w => exact ih w

theorem at?_scrub {path : List Step} (h : path.any Step.isSecret = false) (v : LogValue σ) :
    v.scrub.at? path = (v.at? path).map scrub := by
  induction path generalizing v with
  | nil => rfl
  | cons step path ih =>
    rw [List.any_cons, Bool.or_eq_false_iff] at h
    rw [at?, at?, child_scrub, h.1]
    cases v.child step with
    | none => rfl
    | some w => exact ih h.2 w

theorem shape_scrub (v : LogValue σ) : v.scrub.shape = v.shape := by
  cases v with
  | dict entries => exact congrArg Shape.dict (map_fst_scrubEntries entries)
  | list items =>
    show Shape.list (scrubItems items).length = .list items.length
    rw [scrubItems_eq_map, List.length_map]
  | str text => rfl
  | other scalar => rfl

theorem noWebhook_at?_scrub {path : List Step} {v : LogValue σ} {text : String}
    (h : v.scrub.at? path = some (.str text)) : NoWebhook text := by
  induction path generalizing v with
  | nil =>
    cases v with
    | str text' =>
      cases h
      exact noWebhook_subWebhooks text'
    | dict entries => cases h
    | list items => cases h
    | other scalar => cases h
  | cons step path ih =>
    rw [at?, child_scrub] at h
    cases hchild : v.child step with
    | none =>
      rw [hchild] at h
      cases h
    | some w =>
      rw [hchild, Option.map_some, Option.bind_some] at h
      cases hsecret : step.isSecret with
      | false =>
        rw [hsecret] at h
        exact ih h
      | true =>
        rw [hsecret, if_pos rfl] at h
        cases path with
        | nil =>
          cases h
          exact noWebhook_redacted
        | cons inner path => cases inner <;> cases h

mutual

theorem scrub_scrub : (v : LogValue σ) → v.scrub.scrub = v.scrub
  | .dict entries => congrArg LogValue.dict (scrubEntries_scrubEntries entries)
  | .list items => congrArg LogValue.list (scrubItems_scrubItems items)
  | .str text => congrArg LogValue.str (subWebhooks_subWebhooks text)
  | .other _ => rfl

theorem scrubEntries_scrubEntries : (entries : List (String × LogValue σ)) →
    scrubEntries (scrubEntries entries) = scrubEntries entries
  | [] => rfl
  | (k, v) :: rest => by
    rw [scrubEntries, scrubEntries, scrubEntries_scrubEntries rest]
    cases isSecret k with
    | true => rfl
    | false => exact congrArg (fun w => (k, w) :: scrubEntries rest) (scrub_scrub v)

theorem scrubItems_scrubItems : (items : List (LogValue σ)) →
    scrubItems (scrubItems items) = scrubItems items
  | [] => rfl
  | v :: rest => by
    rw [scrubItems, scrubItems, scrubItems_scrubItems rest, scrub_scrub v]

end

/-- The redaction of a value. -/
structure Redacts (v w : LogValue σ) : Prop where
  secret : ∀ path k, path.any Step.isSecret = false → isSecret k = true →
    v.at? (path ++ [.key k]) ≠ none → w.at? (path ++ [.key k]) = some (.str redacted)
  shapes : ∀ path, path.any Step.isSecret = false → (w.at? path).map shape = (v.at? path).map shape
  texts : ∀ path text, path.any Step.isSecret = false → ¬ HasWebhook text →
    v.at? path = some (.str text) → w.at? path = some (.str text)
  noWebhook : ∀ path text, w.at? path = some (.str text) → NoWebhook text
  again : w.scrub = w

/-- For every event value: the values under secret keys are replaced, every key, length, scalar and
text without a webhook URL stays, no string that is left holds one, and a second time nothing
changes. -/
theorem redacts_scrub (v : LogValue σ) : Redacts v v.scrub where
  secret path k hpath hk hthere := by
    rw [at?_append, at?_scrub hpath]
    rw [at?_append] at hthere
    cases hat : v.at? path with
    | none =>
      rw [hat] at hthere
      exact absurd rfl hthere
    | some w =>
      rw [hat, Option.bind_some, at?] at hthere
      rw [Option.map_some, Option.bind_some, at?, child_scrub]
      cases hchild : w.child (.key k) with
      | none =>
        rw [hchild] at hthere
        exact absurd rfl hthere
      | some x =>
        rw [Option.map_some, show (Step.key k).isSecret = true from hk]
        rfl
  shapes path hpath := by
    rw [at?_scrub hpath, Option.map_map]
    congr 1
    exact funext shape_scrub
  texts path text hpath htext hat := by
    rw [at?_scrub hpath, hat]
    exact congrArg (fun t => some (LogValue.str t)) (subWebhooks_of_not_hasWebhook htext)
  noWebhook _ _ h := noWebhook_at?_scrub h
  again := scrub_scrub v

def bareUrl : LogValue Unit := .dict [("msg", .str "https://discord.com/api/webhooks/ x")]

/-- The prefix is left with neither the end nor the placeholder behind it. -/
theorem not_placeholder_bareUrl :
    ¬ ∀ (v : LogValue Unit) path text, v.scrub.at? path = some (.str text) →
      ∀ u w, text.toList = u ++ discordPrefix.toList ++ w → w = [] ∨ redacted.toList <+: w := by
  intro h
  have hkept : subWebhooks "https://discord.com/api/webhooks/ x" =
      "https://discord.com/api/webhooks/ x" := by decide +kernel
  have hat : bareUrl.scrub.at? [.key "msg"] = some (.str "https://discord.com/api/webhooks/ x") := by
    have hthere : bareUrl.at? [.key "msg"] = some (.str "https://discord.com/api/webhooks/ x") := rfl
    rw [at?_scrub (by decide +kernel), hthere]
    exact congrArg (fun t => some (LogValue.str t)) hkept
  rcases h bareUrl _ _ hat [] " x".toList (by decide +kernel) with hnil | hprefix
  · exact absurd hnil (by decide +kernel)
  · exact absurd hprefix (by decide +kernel)

end LogValue
end KalshiAgent
