import Nuropb.Patterns.RegistryViewer
import Nuropb.Python.JsonAscii

/-! # An advertisement on the wire

Every advertisement has a body, and reads back from it, so that a viewer finds what has been announced.
-/
namespace Nuropb.Patterns

open Library Transport

def ServiceAdvertisement.fields (advert : Advertisement) : Table :=
  [(Text.ofString "service", .str advert.service), (Text.ofString "methods", .list (advert.methods.map .str)),
    (Text.ofString "instance_id", .str advert.instanceId), (Text.ofString "queue", .str advert.queue),
    (Text.ofString "exchange", .str advert.exchange), (Text.ofString "published_at", .float advert.publishedAt.bits),
    (Text.ofString "ttl_s", .float advert.ttlS.bits)]

def ServiceAdvertisement.toWire (stack : Nat) (advert : Advertisement) : Except Exc Bytes := do
  let text ← Json.dumpsAscii stack (.dict advert.fields)
  encodeUtf8 text

/-- The advertisement that arrives: JSON has one NaN, and its escapes have no lone halves of a pair. -/
def ServiceAdvertisement.arrived (advert : Advertisement) : Advertisement where
  service := Json.pairUp advert.service
  methods := advert.methods.map Json.pairUp
  instanceId := Json.pairUp advert.instanceId
  queue := Json.pairUp advert.queue
  exchange := Json.pairUp advert.exchange
  publishedAt := ⟨Json.readFloat advert.publishedAt.bits⟩
  ttlS := ⟨Json.readFloat advert.ttlS.bits⟩

section Wire

variable {builtins : Builtins} {stack : Nat} {advert : Advertisement}

def members (advert : Advertisement) : List Text :=
  [Json.quote (Text.ofString "service") ++ .scalar ':' :: Json.quote advert.service,
    Json.quote (Text.ofString "methods") ++ .scalar ':' :: Json.joined '[' ']' (advert.methods.map Json.quote),
    Json.quote (Text.ofString "instance_id") ++ .scalar ':' :: Json.quote advert.instanceId,
    Json.quote (Text.ofString "queue") ++ .scalar ':' :: Json.quote advert.queue,
    Json.quote (Text.ofString "exchange") ++ .scalar ':' :: Json.quote advert.exchange,
    Json.quote (Text.ofString "published_at") ++ .scalar ':' :: Text.ofChars (Double.repr advert.publishedAt.bits),
    Json.quote (Text.ofString "ttl_s") ++ .scalar ':' :: Text.ofChars (Double.repr advert.ttlS.bits)]

theorem mapM_texts (texts : List Text) :
    (texts.map PyVal.str).mapM (Json.dumpValue stack) = .ok (texts.map Json.quote) := by
  induction texts with
  | nil => rfl
  | cons t texts ih =>
    rw [List.map_cons, List.mapM_cons, ih]
    cases stack <;> rfl

theorem dumps_members (stack : Nat) (advert : Advertisement) :
    Json.dumps (stack + 2) (.dict advert.fields) = .ok (Json.joined '{' '}' (members advert)) := by
  have hmethods : Json.dumpValue (stack + 1) (.list (advert.methods.map .str)) =
      .ok (Json.joined '[' ']' (advert.methods.map Json.quote)) := by
    rw [Json.dumpValue, mapM_texts]
    rfl
  rw [Json.dumps, Json.dumpValue, ServiceAdvertisement.fields, List.mapM_cons, List.mapM_cons]
  dsimp only
  rw [hmethods]
  rfl

theorem reads_methods (stack : Nat) (methods : List Text) :
    Json.Reads (stack + 1) ((Json.joined '[' ']' (methods.map Json.quote)).flatMap Json.asciiChar)
      (.list ((methods.map Json.pairUp).map .str)) := by
  rw [Json.ascii_joined (by decide) (by decide), List.map_map, List.map_map]
  refine Json.reads_array ?_
  induction methods with
  | nil => exact .nil
  | cons method methods ih => exact .cons (Json.reads_ascii method) ih

/-- What an advertisement is written as reads as the one that arrives. -/
theorem reads_advert (stack : Nat) (advert : Advertisement) :
    Json.Reads (stack + 2) ((Json.joined '{' '}' (members advert)).flatMap Json.asciiChar) (.dict advert.arrived.fields) := by
  rw [Json.ascii_joined (by decide) (by decide)]
  refine Json.reads_object ?_ ?_
  · refine .cons ?_ <| .cons ?_ <| .cons ?_ <| .cons ?_ <| .cons ?_ <| .cons ?_ <| .cons ?_ .nil
    · exact Json.readsMember_ascii (by decide) (Json.reads_ascii _)
    · exact Json.readsMember_ascii (by decide) (reads_methods stack _)
    · exact Json.readsMember_ascii (by decide) (Json.reads_ascii _)
    · exact Json.readsMember_ascii (by decide) (Json.reads_ascii _)
    · exact Json.readsMember_ascii (by decide) (Json.reads_ascii _)
    · exact Json.readsMember_ascii (by decide) (Json.reads_float_ascii _)
    · exact Json.readsMember_ascii (by decide) (Json.reads_float_ascii _)
  · have hkeys : [Text.ofString "service", Text.ofString "methods", Text.ofString "instance_id", Text.ofString "queue",
        Text.ofString "exchange", Text.ofString "published_at", Text.ofString "ttl_s"].Nodup := by decide
    exact hkeys

theorem methodsOf_texts (texts : List Text) : methodsOf (.list (texts.map .str)) = .ok texts := by
  cases texts with
  | nil => rfl
  | cons t texts =>
    refine congrArg (orRaise _) (?_ : _ = some (t :: texts))
    induction texts generalizing t with
    | nil => rfl
    | cons next texts ih =>
      rw [List.map_cons, List.mapM_cons, ih next]
      rfl

theorem fromWire_body (builtins : Builtins) (stack : Nat) {body : Bytes}
    (hbody : encodeUtf8 ((Json.joined '{' '}' (members advert)).flatMap Json.asciiChar) = .ok body) :
    fromWire builtins (stack + 2) body = .ok advert.arrived := by
  rw [fromWire, decodeUtf8_of_encodeUtf8 hbody, ok_bind, Json.loads_of_reads (reads_advert stack advert), ok_bind]
  change (do
    let methods ← methodsOf (.list (advert.arrived.methods.map .str))
    return { advert.arrived with methods }) = _
  rw [methodsOf_texts]
  rfl

theorem toWire_eq (stack : Nat) (advert : Advertisement) :
    advert.toWire (stack + 2) = encodeUtf8 ((Json.joined '{' '}' (members advert)).flatMap Json.asciiChar) := by
  rw [ServiceAdvertisement.toWire, Json.dumpsAscii, dumps_members]
  rfl

end Wire

/-- Every advertisement has a body, and any viewer reads it back from that. -/
theorem advert_roundTrip (advert : Advertisement) : ∃ body, (∀ stack, advert.toWire (stack + 2) = .ok body) ∧
    ∀ builtins stack, fromWire builtins (stack + 2) body = .ok advert.arrived := by
  obtain ⟨body, hbody⟩ := Json.encodeUtf8_ascii (Json.joined '{' '}' (members advert))
  exact ⟨body, fun stack => (toWire_eq stack advert).trans hbody, fun builtins stack => fromWire_body builtins stack hbody⟩

section Stores

variable {τ : Type} {service : Text}

theorem get?_foldl_put (puts : List (ServiceAdvertisement τ)) (store : AdvertisementStore τ) :
    (puts.foldl AdvertisementStore.put store).byService.get? service =
      (lastPut service puts).or (store.byService.get? service) := by
  induction puts generalizing store with
  | nil => rfl
  | cons advert puts ih =>
    rw [List.foldl_cons, ih, lastPut_cons, Option.or_assoc]
    congr 1
    change (store.byService.set advert.service advert).get? service = _
    rw [Dict.get?_set]
    by_cases h : advert.service = service
    · rw [if_pos h, if_pos h]
      rfl
    · rw [if_neg h, if_neg h]
      rfl

end Stores

/-- An advertisement, and the delivery that takes it to a viewer. -/
structure Announced extends Advertised where
  advert : Advertisement
  sender : Nat
  sent : advert.toWire (sender + 2) = .ok msg.body

def arrivals (all : List Announced) : List Advertisement :=
  (all.filter fun sent => !sent.advert.arrived.isExpired sent.now).map fun sent => sent.advert.arrived

theorem fromWire_announced (builtins : Builtins) (stack : Nat) (sent : Announced) :
    fromWire builtins (stack + 2) sent.msg.body = .ok sent.advert.arrived :=
  fromWire_body builtins stack ((toWire_eq sent.sender sent.advert).symm.trans sent.sent)

theorem adverts_announced (builtins : Builtins) (stack : Nat) (all : List Announced) :
    (all.map Announced.toAdvertised).filterMap (Advertised.advert builtins (stack + 2)) = arrivals all := by
  induction all with
  | nil => rfl
  | cons sent all ih =>
    rw [List.map_cons, List.filterMap_cons, ih, Advertised.advert, fromWire_announced, toOption_ok, arrivals, arrivals]
    cases hexpired : sent.advert.arrived.isExpired sent.now with
    | true =>
      rw [Option.filter_some, if_neg (by simp [hexpired]), List.filter_cons_of_neg (by simp [hexpired])]
    | false =>
      rw [Option.filter_some, if_pos (by simp [hexpired]), List.filter_cons_of_pos (by simp [hexpired])]
      rfl

/-- A viewer acks every announcement, and finds the last one of each service that had not expired when it came, unless it
has since. -/
theorem announced_viewed (builtins : Builtins) (stack : Nat) (viewer : MeshRegistryViewer) (caller : CallId)
    (all : List Announced) (hlive : ∀ sent ∈ all, sent.toDelivery.Live viewer.channelId caller) {s : Viewing}
    (hopen : s.conn.channels.get? viewer.channelId = some .open)
    (hackable : ∀ sent ∈ all, sent.toDelivery.Ackable s.conn.frameMax viewer.channelId) : ∃ t,
    viewer.loop builtins (stack + 2) caller (all.map Announced.toAdvertised) s = .ok () t ∧
    AreAcks viewer.channelId (all.map fun sent => sent.toDelivery) (framesBy caller s.conn t.conn) ∧ ∀ service now,
      (t.store.lookup service now).1 = ((lastPut service (arrivals all)).or (s.store.byService.get? service)).filter
        fun advert => !advert.isExpired now := by
  have hlives : ∀ advertised ∈ all.map Announced.toAdvertised, advertised.toDelivery.Live viewer.channelId caller :=
    List.forall_mem_map.mpr hlive
  have hends : ∀ advertised ∈ all.map Announced.toAdvertised, _ := fun advertised hmem =>
    viewer_roundEnds builtins (stack + 2) s.conn.frameMax (hlives advertised hmem)
  have hfits : ∀ advertised ∈ all.map Announced.toAdvertised, advertised.Readable builtins (stack + 2) ∧
      advertised.toDelivery.Ackable s.conn.frameMax viewer.channelId := by
    refine List.forall_mem_map.mpr fun sent hsent => ⟨readable_iff.mpr ?_, hackable sent hsent⟩
    rw [fromWire_announced]
    exact raises_ok _
  obtain ⟨t, hrun, hrounds⟩ := forM_returns hends ⟨hopen, rfl⟩ ((allFit_const ⟨⟩).mpr hfits)
  have hacks := areAcks_of_rounds Advertised.toDelivery Viewing.conn (fun advertised s t hstep => hstep.acked) hrounds
  rw [List.map_map] at hacks
  refine ⟨t, hrun, hacks, fun service now => ?_⟩
  rw [AdvertisementStore.lookup_eq, store_of_rounds hrounds, adverts_announced, get?_foldl_put]

def announced (advert : Advertisement) : Announced where
  receive := pure ()
  msg := { deliveryTag := 1, exchange := [], routingKey := [], redelivered := false, consumerTag := [],
           body := (advert.toWire 2).toOption.getD []
           properties := Properties.empty }
  drain := pure ()
  now := ⟨0⟩
  advert := advert
  sender := 0
  sent := by
    obtain ⟨body, hbody⟩ := Json.encodeUtf8_ascii (Json.joined '{' '}' (members advert))
    rw [toWire_eq, hbody]
    rfl

theorem live_announced (advert : Advertisement) : (announced advert).toDelivery.Live 1 0 where
  receive := staysCalm_pure 1 0
  drain := staysCalm_pure 1 0

theorem ackable_announced (advert : Advertisement) :
    (announced advert).toDelivery.Ackable confirmingConn.frameMax 1 := by
  have hfits : (frameOf confirmingConn.frameMax .method 1 (Protocol.encodeMethod (.basicAck 1 false))).isSome = true := by decide
  exact hfits

/-- An announcement that is not in ASCII, published at `bits`. -/
def books (bits : UInt64) : Advertisement where
  service := Text.ofString "bücher"
  methods := [Text.ofString "📚"]
  instanceId := []
  queue := []
  exchange := []
  publishedAt := ⟨bits⟩
  ttlS := ⟨0x404e000000000000⟩

/-- Both announcements are acked, and the one that came last is found. -/
theorem books_found : ∃ t, MeshRegistryViewer.loop .ascii 2 {} 0
    [(announced (books 0x4000000000000000)).toAdvertised, (announced (books 0x3ff0000000000000)).toAdvertised]
      ⟨confirmingConn, .empty⟩ = .ok () t ∧
    AreAcks 1 [(announced (books 0x4000000000000000)).toDelivery, (announced (books 0x3ff0000000000000)).toDelivery]
      (framesBy 0 confirmingConn t.conn) ∧
    (t.store.lookup (Text.ofString "bücher") ⟨0⟩).1 = some (books 0x3ff0000000000000) := by
  obtain ⟨t, hrun, hacks, hfinds⟩ := announced_viewed .ascii 0 {} 0
    [announced (books 0x4000000000000000), announced (books 0x3ff0000000000000)]
    (by simpa using ⟨live_announced _, live_announced _⟩) (s := ⟨confirmingConn, .empty⟩) (by decide)
    (by simpa using ⟨ackable_announced _, ackable_announced _⟩)
  exact ⟨t, hrun, hacks, (hfinds _ _).trans (by decide +kernel)⟩

end Nuropb.Patterns
