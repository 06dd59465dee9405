import KalshiAgent.Kalshi.Signing
import KalshiAgent.Lib.Numerals

/-! The bytes that `sign_request` signs. Nothing in them separates the timestamp, the method and the
path; they are told apart all the same. -/

namespace KalshiAgent
open Numerals Splitting UrlPath

namespace AuthRequest

def method : AuthRequest → String
  | .rest _ endpoint => endpoint.call.method
  | .handshake _ => "GET"

def message (timestampMs : ℕ) (request : AuthRequest) : List Char :=
  Nat.toDigits 10 timestampMs ++ request.method.toList.map Char.toUpper ++ request.signedPath

def messageBytes (timestampMs : ℕ) (request : AuthRequest) : ByteArray :=
  (String.ofList (request.message timestampMs)).toUTF8

end AuthRequest

/-- What the exchange is asked to do. The query string and the body are not a part of it. -/
inductive Operation
  | getMarket (ticker : String)
  | listMarkets
  | getEvent (eventTicker : String)
  | listPositions
  | listOrders
  | createOrder
  | cancelOrder (orderId : String)
  | getOrder (orderId : String)
  | getBalance
  | listFills
  | feed
  deriving DecidableEq

def ExchangeId.toString (id : ExchangeId) : String := String.ofList id.text

def Endpoint.operation : Endpoint → Operation
  | .getMarket ticker => .getMarket ticker.toString
  | .listMarkets _ _ _ _ => .listMarkets
  | .getEvent eventTicker => .getEvent eventTicker.toString
  | .listPositions => .listPositions
  | .listOrders _ => .listOrders
  | .createOrder => .createOrder
  | .cancelOrder orderId => .cancelOrder orderId.toString
  | .getOrder orderId => .getOrder orderId.toString
  | .getBalance => .getBalance
  | .listFills _ _ _ _ _ => .listFills

def AuthRequest.operation : AuthRequest → Operation
  | .rest _ endpoint => endpoint.operation
  | .handshake _ => .feed

namespace Operation

def method : Operation → String
  | .createOrder => "POST"
  | .cancelOrder _ => "DELETE"
  | _ => "GET"

def path : Operation → List String
  | .getMarket ticker => ["markets", ticker]
  | .listMarkets => ["markets"]
  | .getEvent eventTicker => ["events", eventTicker]
  | .listPositions => ["portfolio", "positions"]
  | .listOrders | .createOrder => ["portfolio", "orders"]
  | .cancelOrder orderId | .getOrder orderId => ["portfolio", "orders", orderId]
  | .getBalance => ["portfolio", "balance"]
  | .listFills => ["portfolio", "fills"]
  | .feed => ["ws", "v2"]

/-- What a server makes of a method and of a path below the root of the API. -/
def ofRoute : String → List String → Option Operation
  | "GET", ["markets", ticker] => some (.getMarket ticker)
  | "GET", ["markets"] => some .listMarkets
  | "GET", ["events", eventTicker] => some (.getEvent eventTicker)
  | "GET", ["portfolio", "positions"] => some .listPositions
  | "GET", ["portfolio", "orders"] => some .listOrders
  | "POST", ["portfolio", "orders"] => some .createOrder
  | "DELETE", ["portfolio", "orders", orderId] => some (.cancelOrder orderId)
  | "GET", ["portfolio", "orders", orderId] => some (.getOrder orderId)
  | "GET", ["portfolio", "balance"] => some .getBalance
  | "GET", ["portfolio", "fills"] => some .listFills
  | "GET", ["ws", "v2"] => some .feed
  | _, _ => none

def message (timestampMs : ℕ) (operation : Operation) : List Char :=
  Nat.toDigits 10 timestampMs ++ operation.method.toList ++
    (apiRoot ++ '/' :: join (operation.path.map String.toList))

theorem ofRoute_path (operation : Operation) :
    ofRoute operation.method operation.path = some operation := by
  cases operation <;> rfl

end Operation

def readMessage (text : List Char) : Option (ℕ × Operation) :=
  let rest := text.dropWhile Char.isDigit
  let path := rest.dropWhile (· ≠ '/')
  (Operation.ofRoute (String.ofList (rest.takeWhile (· ≠ '/')))
      ((segments (path.drop (apiRoot.length + 1))).map String.ofList)).map
    fun operation => (Nat.ofDigitChars 10 (text.takeWhile Char.isDigit) 0, operation)

namespace Operation

theorem method_mem (operation : Operation) : operation.method ∈ ["GET", "POST", "DELETE"] := by
  cases operation <;> simp [method]

theorem method_upper (operation : Operation) :
    operation.method.toList.map Char.toUpper = operation.method.toList := by
  have hall : ∀ method ∈ ["GET", "POST", "DELETE"],
      method.toList.map Char.toUpper = method.toList := by
    decide
  exact hall _ operation.method_mem

theorem method_chars (operation : Operation) :
    operation.method.toList ≠ [] ∧
      ∀ c ∈ operation.method.toList, c.isDigit = false ∧ decide (c ≠ '/') = true := by
  have hall : ∀ method ∈ ["GET", "POST", "DELETE"], method.toList ≠ [] ∧
      method.toList.all (fun c => !c.isDigit && decide (c ≠ '/')) = true := by
    decide
  obtain ⟨hne, hchars⟩ := hall _ operation.method_mem
  refine ⟨hne, fun c hc => ?_⟩
  simpa using List.all_eq_true.mp hchars c hc

theorem path_ne_nil (operation : Operation) : operation.path ≠ [] := by
  cases operation <;> exact List.cons_ne_nil _ _

theorem readMessage_message {operation : Operation}
    (hplain : ∀ part ∈ operation.path, '/' ∉ part.toList) (timestampMs : ℕ) :
    readMessage (operation.message timestampMs) = some (timestampMs, operation) := by
  obtain ⟨hmethod, hchars⟩ := operation.method_chars
  have hdigits : ∀ c ∈ Nat.toDigits 10 timestampMs, c.isDigit = true := fun c hc =>
    Nat.isDigit_of_mem_toDigits (by decide) (by decide) hc
  have hafter : Opens Char.isDigit (operation.method.toList ++
      (apiRoot ++ '/' :: join (operation.path.map String.toList))) := by
    intro c hc
    rw [List.head?_append_of_ne_nil _ hmethod] at hc
    exact (hchars c (List.mem_of_mem_head? hc)).1
  have hslash : Opens (fun c => decide (c ≠ '/'))
      (apiRoot ++ '/' :: join (operation.path.map String.toList)) := by
    intro c hc
    cases hc
    rfl
  have hpath : (apiRoot ++ '/' :: join (operation.path.map String.toList)).drop (apiRoot.length + 1) =
      join (operation.path.map String.toList) := by
    rw [List.drop_length_add_append]
    rfl
  have hsegments : (segments (join (operation.path.map String.toList))).map String.ofList =
      operation.path := by
    rw [segments_join]
    · simp
    · simpa using operation.path_ne_nil
    · simpa using hplain
  rw [message, List.append_assoc, readMessage, takeWhile_append_of_opens hdigits hafter,
    dropWhile_append_of_opens hdigits hafter, takeWhile_append_of_opens (fun c hc => (hchars c hc).2) hslash,
    dropWhile_append_of_opens (fun c hc => (hchars c hc).2) hslash, hpath, hsegments,
    String.ofList_toList, ofRoute_path, Nat.ofDigitChars_ten_toDigits]
  rfl

end Operation

theorem ExchangeId.toString_toList (id : ExchangeId) : id.toString.toList = id.text :=
  String.toList_ofList

theorem Endpoint.path_segments (endpoint : Endpoint) :
    endpoint.operation.path.map String.toList = segments endpoint.resource := by
  rw [segments_resource]
  cases endpoint with
  | getMarket id | getEvent id | cancelOrder id | getOrder id =>
    simp only [operation, Operation.path, List.map_cons, List.map_nil, id.toString_toList]
    rfl
  | _ => rfl

namespace AuthRequest

theorem operation_plain (request : AuthRequest) :
    ∀ part ∈ request.operation.path, '/' ∉ part.toList := by
  cases request with
  | handshake url => simp [operation, Operation.path]
  | rest base endpoint =>
    intro part hpart
    have hsegment : part.toList ∈ segments endpoint.resource := by
      rw [← endpoint.path_segments]
      exact List.mem_map_of_mem hpart
    exact slash_notMem hsegment

theorem message_operation (timestampMs : ℕ) (request : AuthRequest) :
    request.message timestampMs = request.operation.message timestampMs := by
  have hmethod : request.method = request.operation.method := by
    cases request with
    | handshake url => rfl
    | rest base endpoint => cases endpoint <;> rfl
  have hpath : request.signedPath =
      apiRoot ++ '/' :: join (request.operation.path.map String.toList) := by
    cases request with
    | handshake url =>
      have hfeed : apiPath "/ws/v2".toList =
          apiRoot ++ '/' :: join (["ws", "v2"].map String.toList) := by
        decide
      exact hfeed
    | rest base endpoint =>
      have hresource : join (endpoint.operation.path.map String.toList) = endpoint.resource := by
        rw [endpoint.path_segments, join_segments]
      have hsigned := endpoint.apiPath_call
      rw [Endpoint.signed, ← hresource] at hsigned
      exact hsigned
  rw [message, Operation.message, hmethod, Operation.method_upper, hpath]

/-- A signature is good for one timestamp and one operation, and nothing else makes a difference to
it: two orders that are created in one millisecond are signed as one. -/
theorem signature_binds (timestampMs timestampMs' : ℕ) (request request' : AuthRequest) :
    readMessage (request.message timestampMs) = some (timestampMs, request.operation) ∧
      (request.messageBytes timestampMs = request'.messageBytes timestampMs' ↔
        timestampMs = timestampMs' ∧ request.operation = request'.operation) := by
  have hread : ∀ timestampMs (request : AuthRequest),
      readMessage (request.message timestampMs) = some (timestampMs, request.operation) := by
    intro timestampMs request
    rw [message_operation]
    exact Operation.readMessage_message request.operation_plain timestampMs
  refine ⟨hread timestampMs request, ?_, ?_⟩
  · intro hbytes
    have htext : request.message timestampMs = request'.message timestampMs' :=
      String.ofList_injective (String.toByteArray_inj.mp hbytes)
    have hboth := (hread timestampMs request).symm.trans
      ((congrArg readMessage htext).trans (hread timestampMs' request'))
    exact Prod.mk.inj (Option.some.inj hboth)
  · rintro ⟨rfl, hoperation⟩
    rw [messageBytes, messageBytes, message_operation, message_operation, hoperation]

end AuthRequest

end KalshiAgent
