import KalshiAgent.Lib.Text
import KalshiAgent.Lib.UrlPath

/-! What is signed beside what is requested. `_api_path` puts together the signed path from the path
of a call, and the libraries find the path that they request in a URL. -/

namespace KalshiAgent
open UrlPath

def beforeQuery (text : List Char) : List Char := text.takeWhile (· ≠ '?')

def apiRoot : List Char := "/trade-api/v2".toList

def apiPath (path : List Char) : List Char :=
  if "/trade-api/".toList.isPrefixOf path then beforeQuery path
  else beforeQuery (apiRoot ++ path)

def rstripSlash (text : List Char) : List Char := (text.reverse.dropWhile (· = '/')).reverse

/-- Letters, digits, dots and dashes. Beyond ASCII every character will do, the letters of other
scripts among them. -/
def isIdChar (c : Char) : Bool := c.isAlphanum || c = '.' || c = '-' || 128 ≤ c.toNat

structure ExchangeId where
  text : List Char
  isId : ∀ c ∈ text, isIdChar c = true

inductive QueryValue
  | str (text : String)
  | int (n : ℤ)

structure RestCall where
  method : String
  path : List Char
  params : List (String × QueryValue)

inductive Endpoint
  | getMarket (ticker : ExchangeId)
  | listMarkets (status : String) (limit : ℤ) (cursor eventTicker : Option String)
  | getEvent (eventTicker : ExchangeId)
  | listPositions
  | listOrders (status : Option String)
  | createOrder
  | cancelOrder (orderId : ExchangeId)
  | getOrder (orderId : ExchangeId)
  | getBalance
  | listFills (ticker : Option String) (minTs maxTs : Option ℤ) (limit : ℤ) (cursor : Option String)

def textParam (key : String) (text : Option String) : List (String × QueryValue) :=
  if given text then text.toList.map fun s => (key, .str s) else []

def intParam (key : String) (n : Option ℤ) : List (String × QueryValue) :=
  n.toList.map fun n => (key, .int n)

namespace Endpoint

def call : Endpoint → RestCall
  | .getMarket ticker => ⟨"GET", "/markets/".toList ++ ticker.text, []⟩
  | .listMarkets status limit cursor eventTicker =>
    ⟨"GET", "/markets".toList, [("status", .str status), ("limit", .int limit)] ++
      textParam "cursor" cursor ++ textParam "event_ticker" eventTicker⟩
  | .getEvent eventTicker => ⟨"GET", "/events/".toList ++ eventTicker.text, []⟩
  | .listPositions => ⟨"GET", "/portfolio/positions".toList, []⟩
  | .listOrders status => ⟨"GET", "/portfolio/orders".toList, textParam "status" status⟩
  | .createOrder => ⟨"POST", "/portfolio/orders".toList, []⟩
  | .cancelOrder orderId => ⟨"DELETE", "/portfolio/orders/".toList ++ orderId.text, []⟩
  | .getOrder orderId => ⟨"GET", "/portfolio/orders/".toList ++ orderId.text, []⟩
  | .getBalance => ⟨"GET", "/portfolio/balance".toList, []⟩
  | .listFills ticker minTs maxTs limit cursor =>
    ⟨"GET", "/portfolio/fills".toList, [("limit", .int limit)] ++ textParam "ticker" ticker ++
      intParam "min_ts" minTs ++ intParam "max_ts" maxTs ++ textParam "cursor" cursor⟩

def id? : Endpoint → Option ExchangeId
  | .getMarket ticker => some ticker
  | .getEvent eventTicker => some eventTicker
  | .cancelOrder orderId | .getOrder orderId => some orderId
  | _ => none

end Endpoint

/-- The characters of a path that no URL library escapes. -/
def isPathChar (c : Char) : Bool := c.isAlphanum || c ∈ ['-', '.', '_', '~', '/']

def orSlash (path : List Char) : List Char := if path = [] then ['/'] else path

/-- What httpx and websockets make of a URL that they accept: the target of the request line.
httpx removes dot segments and escapes what a URL may not hold. -/
structure UrlLibraries where
  quote : List Char → List Char
  quote_of_pathChars : ∀ text, (∀ c ∈ text, isPathChar c = true) → quote text = text
  quote_of_percent_notMem : ∀ text, '%' ∉ quote text → quote text = text
  quote_ascii : ∀ text, ∀ c ∈ quote text, c.toNat < 128
  requestTarget : List Char → List (String × QueryValue) → List Char
  requestTarget_path : ∀ url params,
    beforeQuery (requestTarget url params) = orSlash (quote (dropDots (urlPath url)))
  handshakeTarget : List Char → List Char
  handshakeTarget_path : ∀ url, (∀ c ∈ urlPath url, isPathChar c = true) →
    beforeQuery (handshakeTarget url) = orSlash (urlPath url)

structure BaseUrl where
  origin : Origin
  root : List Char
  isPath : IsPath root

namespace BaseUrl

def path (base : BaseUrl) : List Char := base.root ++ apiRoot

def text (base : BaseUrl) : List Char := base.origin.text ++ base.path

end BaseUrl

structure WsUrl where
  text : List Char
  path_eq : urlPath text = "/trade-api/ws/v2".toList

inductive AuthRequest
  | rest (base : BaseUrl) (endpoint : Endpoint)
  | handshake (url : WsUrl)

namespace AuthRequest

/-- The path that `_request` or `_auth_headers` hands to `sign_request`. -/
def signedPath : AuthRequest → List Char
  | .rest _ endpoint => apiPath endpoint.call.path
  | .handshake _ => apiPath "/ws/v2".toList

/-- The path of the URL opened, without its query string. -/
def openedPath (libs : UrlLibraries) : AuthRequest → List Char
  | .rest base endpoint => beforeQuery
      (libs.requestTarget (rstripSlash base.text ++ endpoint.call.path) endpoint.call.params)
  | .handshake url => beforeQuery (libs.handshakeTarget url.text)

/-- The condition: a REST call at the API's own root, whose id is ASCII and no dot segment. -/
def AtApiRoot : AuthRequest → Prop
  | .rest base endpoint => dropDots base.path = apiRoot ∧
      ∀ id ∈ endpoint.id?, ¬ IsDot id.text ∧ ∀ c ∈ id.text, c.toNat < 128
  | .handshake _ => False

end AuthRequest

theorem isPathChar_of_idChar {c : Char} (hid : isIdChar c = true) (hascii : c.toNat < 128) :
    isPathChar c = true := by
  unfold isIdChar at hid
  unfold isPathChar
  simp only [Bool.or_eq_true, decide_eq_true_eq] at hid ⊢
  rcases hid with ((halnum | rfl) | rfl) | hlarge
  · exact .inl halnum
  · exact .inr (by decide)
  · exact .inr (by decide)
  · exact absurd hascii (not_lt.mpr hlarge)

theorem idChar_ne {c : Char} (h : isIdChar c = true) : c ≠ '/' ∧ c ≠ '?' ∧ c ≠ '#' ∧ c ≠ '%' := by
  refine ⟨?_, ?_, ?_, ?_⟩ <;> (rintro rfl; exact absurd h (by decide))

theorem pathChar_ne {c : Char} (h : isPathChar c = true) : c ≠ '?' ∧ c ≠ '#' ∧ c ≠ '%' := by
  refine ⟨?_, ?_, ?_⟩ <;> (rintro rfl; exact absurd h (by decide))

theorem beforeQuery_of_notMem {text : List Char} (h : '?' ∉ text) : beforeQuery text = text := by
  apply List.takeWhile_eq_self_iff.mpr
  intro c hc
  have hne : c ≠ '?' := fun heq => h (heq ▸ hc)
  exact decide_eq_true hne

theorem rstripSlash_text (base : BaseUrl) : rstripSlash base.text = base.text := by
  have hreverse : base.text.reverse =
      "2v/ipa-edart/".toList ++ (base.origin.text ++ base.root).reverse := by
    rw [BaseUrl.text, BaseUrl.path, ← List.append_assoc, List.reverse_append]
    rfl
  have hlast : base.text.reverse.dropWhile (· = '/') = base.text.reverse := by
    rw [hreverse]
    rfl
  rw [rstripSlash, hlast, List.reverse_reverse]

theorem apiRoot_chars : ∀ c ∈ apiRoot, isPathChar c = true :=
  List.all_eq_true.mp (by decide)

namespace BaseUrl

theorem isPath_path (base : BaseUrl) : IsPath base.path := by
  apply base.isPath.append
  constructor
  · exact .inr rfl
  · intro c hc
    obtain ⟨hquery, hfragment, _⟩ := pathChar_ne (apiRoot_chars c hc)
    simp [hquery, hfragment]

theorem head_path (base : BaseUrl) : base.path.head? = some '/' :=
  base.isPath_path.rooted.resolve_left (List.append_ne_nil_of_right_ne_nil _ (by decide))

end BaseUrl

namespace Endpoint

def collection : Endpoint → List Char
  | .getMarket _ | .listMarkets _ _ _ _ => "markets".toList
  | .getEvent _ => "events".toList
  | .listPositions => "portfolio/positions".toList
  | .listOrders _ | .createOrder | .cancelOrder _ | .getOrder _ => "portfolio/orders".toList
  | .getBalance => "portfolio/balance".toList
  | .listFills _ _ _ _ _ => "portfolio/fills".toList

def resource (endpoint : Endpoint) : List Char :=
  match endpoint.id? with
  | none => endpoint.collection
  | some id => endpoint.collection ++ '/' :: id.text

def signed (endpoint : Endpoint) : List Char := apiRoot ++ '/' :: endpoint.resource

variable (endpoint : Endpoint)

theorem call_path : endpoint.call.path = '/' :: endpoint.resource := by
  cases endpoint <;> rfl

theorem collection_chars : ∀ c ∈ endpoint.collection, isPathChar c = true := by
  apply List.all_eq_true.mp
  cases endpoint <;> rfl

theorem collection_plain : ∀ s ∈ segments endpoint.collection, ¬ IsDot s := by
  cases endpoint <;> (dsimp only [collection]; decide)

theorem mem_resource {c : Char} (h : c ∈ endpoint.resource) :
    isPathChar c = true ∨ ∃ id ∈ endpoint.id?, c ∈ id.text := by
  unfold resource at h
  cases hid : endpoint.id? with
  | none =>
    rw [hid] at h
    exact .inl (endpoint.collection_chars c h)
  | some id =>
    rw [hid] at h
    rcases List.mem_append.mp h with hcollection | hrest
    · exact .inl (endpoint.collection_chars c hcollection)
    rcases List.mem_cons.mp hrest with rfl | hin
    · exact .inl (by decide)
    · exact .inr ⟨id, rfl, hin⟩

theorem mem_resource_of_id {id : ExchangeId} (hid : id ∈ endpoint.id?) {c : Char}
    (hc : c ∈ id.text) : c ∈ endpoint.resource := by
  rw [resource, Option.mem_def.mp hid]
  exact List.mem_append_right _ (List.mem_cons_of_mem _ hc)

theorem resource_ne {c : Char} (h : c ∈ endpoint.resource) : c ≠ '?' ∧ c ≠ '#' ∧ c ≠ '%' := by
  rcases endpoint.mem_resource h with hpath | ⟨id, _, hid⟩
  · exact pathChar_ne hpath
  · exact (idChar_ne (id.isId c hid)).2

theorem segments_resource : segments endpoint.resource =
    segments endpoint.collection ++ (endpoint.id?.map ExchangeId.text).toList := by
  unfold resource
  cases endpoint.id? with
  | none => exact (List.append_nil _).symm
  | some id =>
    have hslash : '/' ∉ id.text := fun hin => (idChar_ne (id.isId _ hin)).1 rfl
    dsimp only
    rw [segments_append, segments_of_notMem hslash]
    rfl

theorem resource_plain_iff : (∀ s ∈ segments endpoint.resource, ¬ IsDot s) ↔
    ∀ id ∈ endpoint.id?, ¬ IsDot id.text := by
  rw [segments_resource]
  constructor
  · intro h id hid
    apply h
    apply List.mem_append_right
    rw [Option.mem_def.mp hid]
    exact List.mem_singleton_self id.text
  · intro h s hs
    rcases List.mem_append.mp hs with hcollection | hid
    · exact endpoint.collection_plain s hcollection
    · obtain ⟨id, hsome, rfl⟩ := Option.map_eq_some_iff.mp (Option.mem_toList.mp hid)
      exact h id hsome

theorem isPath_call : IsPath endpoint.call.path := by
  rw [call_path]
  constructor
  · exact .inr rfl
  · intro c hc
    rcases List.mem_cons.mp hc with rfl | hc
    · decide
    · obtain ⟨hquery, hfragment, _⟩ := endpoint.resource_ne hc
      simp [hquery, hfragment]

theorem signed_ne {c : Char} (h : c ∈ endpoint.signed) : c ≠ '?' ∧ c ≠ '#' ∧ c ≠ '%' := by
  rw [signed] at h
  rcases List.mem_append.mp h with hfixed | hrest
  · exact pathChar_ne (apiRoot_chars c hfixed)
  rcases List.mem_cons.mp hrest with rfl | hin
  · exact pathChar_ne (by decide)
  · exact endpoint.resource_ne hin

theorem percent_notMem_signed : '%' ∉ endpoint.signed := fun h => (endpoint.signed_ne h).2.2 rfl

theorem one_lt_length_signed : 1 < endpoint.signed.length := by
  rw [signed, List.length_append]
  exact Nat.lt_add_right _ (by decide)

theorem apiPath_call : apiPath endpoint.call.path = endpoint.signed := by
  have hprefix : "/trade-api/".toList.isPrefixOf endpoint.call.path = false := by
    cases endpoint <;> rfl
  have hquery : '?' ∉ endpoint.signed := fun h => (endpoint.signed_ne h).1 rfl
  rw [apiPath, hprefix, if_neg Bool.false_ne_true, call_path]
  exact beforeQuery_of_notMem hquery

end Endpoint

section Agreement
variable (libs : UrlLibraries) (base : BaseUrl) (endpoint : Endpoint)

theorem openedPath_rest : AuthRequest.openedPath libs (.rest base endpoint) =
    orSlash (libs.quote (dropDots (base.path ++ '/' :: endpoint.resource))) := by
  have hpath : IsPath (base.path ++ endpoint.call.path) :=
    base.isPath_path.append endpoint.isPath_call
  rw [AuthRequest.openedPath, libs.requestTarget_path, rstripSlash_text, BaseUrl.text,
    List.append_assoc, urlPath_origin base.origin hpath, endpoint.call_path]

/-- A text of more than a slash, without escapes, is what a library sends for a path exactly when
it is that path and nothing in it is escaped. -/
theorem eq_orSlash_quote_iff {text path : List Char} (hlong : 1 < text.length)
    (hplain : '%' ∉ text) :
    text = orSlash (libs.quote path) ↔ text = path ∧ libs.quote path = path := by
  unfold orSlash
  split_ifs with hempty
  · constructor
    · rintro rfl
      exact absurd hlong (lt_irrefl 1)
    · rintro ⟨rfl, hquote⟩
      rw [← hquote, hempty] at hlong
      exact absurd hlong (Nat.not_lt_zero 1)
  · constructor
    · rintro rfl
      have hquote := libs.quote_of_percent_notMem path hplain
      exact ⟨hquote, hquote⟩
    · rintro ⟨rfl, hquote⟩
      exact hquote.symm

theorem quote_signed_iff : libs.quote endpoint.signed = endpoint.signed ↔
    ∀ id ∈ endpoint.id?, ∀ c ∈ id.text, c.toNat < 128 := by
  constructor
  · intro h id hid c hc
    apply libs.quote_ascii endpoint.signed
    rw [h, Endpoint.signed]
    apply List.mem_append_right
    apply List.mem_cons_of_mem
    exact endpoint.mem_resource_of_id hid hc
  · intro h
    apply libs.quote_of_pathChars
    intro c hc
    rw [Endpoint.signed] at hc
    rcases List.mem_append.mp hc with hfixed | hrest
    · exact apiRoot_chars c hfixed
    rcases List.mem_cons.mp hrest with rfl | hresource
    · decide
    rcases endpoint.mem_resource hresource with hpath | ⟨id, hid, hin⟩
    · exact hpath
    · exact isPathChar_of_idChar (id.isId c hin) (h id hid c hin)

theorem signed_eq_dropDots_iff :
    endpoint.signed = dropDots (base.path ++ '/' :: endpoint.resource) ↔
      dropDots base.path = apiRoot ∧ ∀ id ∈ endpoint.id?, ¬ IsDot id.text := by
  rw [← endpoint.resource_plain_iff]
  constructor
  · intro h
    have hroot : (base.path ++ '/' :: endpoint.resource).head? = some '/' := by
      rw [List.head?_append, base.head_path]
      rfl
    have hplain : ∀ s ∈ segments endpoint.resource, ¬ IsDot s := by
      intro s hs
      apply not_isDot_of_dropDots hroot
      rw [← h, Endpoint.signed, segments_append]
      exact List.mem_append_right _ hs
    rw [dropDots_append base.head_path hplain] at h
    exact ⟨(List.append_cancel_right h).symm, hplain⟩
  · rintro ⟨hbase, hplain⟩
    rw [dropDots_append base.head_path hplain, hbase]
    rfl

/-- For every authenticated request, whatever the libraries do beyond what they document: the signed
path is the opened one exactly at the API's root. -/
theorem signedPath_eq_openedPath_iff (request : AuthRequest) :
    request.signedPath = request.openedPath libs ↔ request.AtApiRoot := by
  cases request with
  | rest base endpoint =>
    have hsigned : AuthRequest.signedPath (.rest base endpoint) = endpoint.signed :=
      endpoint.apiPath_call
    rw [hsigned, openedPath_rest,
      eq_orSlash_quote_iff libs endpoint.one_lt_length_signed endpoint.percent_notMem_signed]
    constructor
    · rintro ⟨hpath, hquote⟩
      obtain ⟨hbase, hplain⟩ := (signed_eq_dropDots_iff base endpoint).mp hpath
      rw [← hpath] at hquote
      have hascii := (quote_signed_iff libs endpoint).mp hquote
      exact ⟨hbase, fun id hid => ⟨hplain id hid, hascii id hid⟩⟩
    · rintro ⟨hbase, hid⟩
      have hpath := (signed_eq_dropDots_iff base endpoint).mpr ⟨hbase, fun id h => (hid id h).1⟩
      have hquote := (quote_signed_iff libs endpoint).mpr fun id h => (hid id h).2
      rw [hpath] at hquote
      exact ⟨hpath, hquote⟩
  | handshake url =>
    have hsigned : AuthRequest.signedPath (.handshake url) = "/trade-api/v2/ws/v2".toList := rfl
    have hopened : AuthRequest.openedPath libs (.handshake url) = "/trade-api/ws/v2".toList := by
      have hchars : ∀ c ∈ urlPath url.text, isPathChar c = true := by
        rw [url.path_eq]
        exact List.all_eq_true.mp (by decide)
      rw [AuthRequest.openedPath, libs.handshakeTarget_path url.text hchars, url.path_eq]
      rfl
    rw [hsigned, hopened]
    exact iff_of_false (by decide) not_false

end Agreement

/-- The characters of a path that httpx does not escape, with the `%` of an escape that it finds. -/
def isPathSafe (c : Char) : Bool :=
  0x20 < c.toNat && c.toNat < 0x7f &&
    c.toNat ∉ [0x22, 0x23, 0x3c, 0x3e, 0x3f, 0x60, 0x7b, 0x7d]

theorem isPathSafe_ascii {c : Char} (h : isPathSafe c = true) : c.toNat < 128 := by
  simp only [isPathSafe, Bool.and_eq_true, decide_eq_true_eq] at h
  omega

theorem toNat_of_isAlphanum {c : Char} (h : c.isAlphanum = true) :
    (48 ≤ c.toNat ∧ c.toNat ≤ 57) ∨ (65 ≤ c.toNat ∧ c.toNat ≤ 90) ∨
      (97 ≤ c.toNat ∧ c.toNat ≤ 122) := by
  rcases Bool.or_eq_true_iff.mp h with halpha | hdigit
  · rcases Bool.or_eq_true_iff.mp halpha with hupper | hlower
    · have hrange : 65 ≤ c.toNat ∧ c.toNat ≤ 90 := of_decide_eq_true hupper
      exact .inr (.inl hrange)
    · obtain ⟨hlow, hhigh⟩ := Bool.and_eq_true_iff.mp hlower
      have hrange : 97 ≤ c.toNat ∧ c.toNat ≤ 122 :=
        ⟨of_decide_eq_true hlow, of_decide_eq_true hhigh⟩
      exact .inr (.inr hrange)
  · obtain ⟨hlow, hhigh⟩ := Bool.and_eq_true_iff.mp hdigit
    have hrange : 48 ≤ c.toNat ∧ c.toNat ≤ 57 :=
      ⟨of_decide_eq_true hlow, of_decide_eq_true hhigh⟩
    exact .inl hrange

theorem isPathSafe_of_isPathChar {c : Char} (h : isPathChar c = true) : isPathSafe c = true := by
  rw [isPathChar, Bool.or_eq_true] at h
  rcases h with halnum | hmark
  · have hrange := toNat_of_isAlphanum halnum
    simp only [isPathSafe, Bool.and_eq_true, decide_eq_true_eq]
    refine ⟨⟨?_, ?_⟩, ?_⟩
    · omega
    · omega
    · simp only [List.mem_cons, List.not_mem_nil, or_false, not_or]
      omega
  · have hmarks : ['-', '.', '_', '~', '/'].all isPathSafe = true := by decide
    exact List.all_eq_true.mp hmarks c (of_decide_eq_true hmark)

def QueryValue.text : QueryValue → String
  | .str text => text
  | .int n => toString n

def queryText (params : List (String × QueryValue)) : List Char :=
  if params = [] then []
  else '?' :: ['&'].intercalate (params.map fun (key, value) => key.toList ++ '=' :: value.text.toList)

theorem beforeQuery_append_queryText {path : List Char} (h : '?' ∉ path)
    (params : List (String × QueryValue)) : beforeQuery (path ++ queryText params) = path := by
  have hpath : ∀ c ∈ path, decide (c ≠ '?') = true := fun c hc =>
    decide_eq_true fun heq => h (heq ▸ hc)
  rw [beforeQuery, List.takeWhile_append_of_pos hpath]
  unfold queryText
  split_ifs
  · exact List.append_nil path
  · exact List.append_nil path

theorem query_notMem_quote (path : List Char) : '?' ∉ orSlash (quote isPathSafe path) := by
  unfold orSlash
  split_ifs
  · decide
  · intro h
    rcases mem_quote h with hsafe | hescape
    · exact absurd hsafe (by decide)
    · exact absurd hescape (by decide)

/-- The libraries, up to the encoding of the query. -/
def UrlLibraries.standard : UrlLibraries where
  quote := UrlPath.quote isPathSafe
  quote_of_pathChars _ h := quote_of_safe fun c hc => isPathSafe_of_isPathChar (h c hc)
  quote_of_percent_notMem _ h := UrlPath.quote_of_percent_notMem h
  quote_ascii _ c hc := by
    have hdigits : ('%' :: hexDigits).all (fun c => c.toNat < 128) = true := by decide
    rcases mem_quote hc with hsafe | hescape
    · exact isPathSafe_ascii hsafe
    · exact of_decide_eq_true (List.all_eq_true.mp hdigits c hescape)
  requestTarget url params :=
    orSlash (UrlPath.quote isPathSafe (dropDots (urlPath url))) ++ queryText params
  requestTarget_path _ params := beforeQuery_append_queryText (query_notMem_quote _) params
  handshakeTarget url := orSlash (urlPath url)
  handshakeTarget_path url h := by
    apply beforeQuery_of_notMem
    unfold orSlash
    split_ifs
    · decide
    · exact fun hin => (pathChar_ne (h _ hin)).1 rfl

def wsUrlPaper : WsUrl := ⟨"wss://demo-api.kalshi.co/trade-api/ws/v2".toList, by decide +kernel⟩

/-- The handshake signs `/trade-api/v2/ws/v2` and opens `/trade-api/ws/v2`. -/
theorem not_signedPath_eq_openedPath_handshake :
    AuthRequest.signedPath (.handshake wsUrlPaper) = "/trade-api/v2/ws/v2".toList ∧
      AuthRequest.openedPath .standard (.handshake wsUrlPaper) = "/trade-api/ws/v2".toList ∧
      AuthRequest.signedPath (.handshake wsUrlPaper) ≠
        AuthRequest.openedPath .standard (.handshake wsUrlPaper) := by
  decide +kernel

end KalshiAgent
