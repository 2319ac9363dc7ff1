import Nuropb.Patterns.Consumers
import Nuropb.Patterns.Context
import Nuropb.Patterns.Registry
import Nuropb.Python.Float
import Nuropb.Python.JsonValues

/-! # The viewer of the registry

Every advertisement is acked. What its body raises is caught by a list of types, and ends the loop when it is none
of them.
-/
namespace Nuropb.Patterns

open Library Protocol Transport

abbrev Advertisement := ServiceAdvertisement Float64

section Wire

variable (builtins : Builtins) (stack : Nat)

/-- `data.get("methods") or []`, as a list of texts. -/
def methodsOf (value : PyVal) : Except Exc (List Text) :=
  let invalid := Exc.valueError "registry advertisement methods must be a list of strings"
  if truthy value then
    match value with
    | .list items => orRaise invalid (items.mapM fun
        | .str t => some t
        | _ => none)
    | _ => .error invalid
  else .ok []

/-- `str(data[key])` -/
def textField (data : Table) (key : String) : Except Exc Text := do
  let value ← orRaise .keyError (lookup (Text.ofString key) data)
  builtins.str stack value

/-- `float(data[key])` -/
def floatField (data : Table) (key : String) : Except Exc Float64 := do
  let value ← orRaise .keyError (lookup (Text.ofString key) data)
  let bits ← builtins.float value
  return ⟨bits⟩

/-- The fields are converted in their order; only an object has a `get`. -/
def fromWire (body : Bytes) : Except Exc Advertisement := do
  let text ← decodeUtf8 body
  match ← Json.loads stack text with
  | .dict data => do
    let methods ← methodsOf ((lookup (Text.ofString "methods") data).getD .none)
    let service ← textField builtins stack data "service"
    let instanceId ← textField builtins stack data "instance_id"
    let queue ← textField builtins stack data "queue"
    let exchange ← textField builtins stack data "exchange"
    let publishedAt ← floatField builtins data "published_at"
    let ttlS ← floatField builtins data "ttl_s"
    return { service, methods, instanceId, queue, exchange, publishedAt, ttlS }
  | _ => .error .attributeError

/-- `except (ValueError, KeyError, TypeError, json.JSONDecodeError)` -/
def isCaught : Exc → Bool
  | .valueError _ | .jsonDecodeError | .unicodeDecodeError | .unicodeEncodeError | .keyError | .typeError => true
  | _ => false

end Wire

/-- A delivery, and the clock when its advertisement is looked at. -/
structure Advertised extends Delivery where
  now : Float64

structure Viewing where
  conn : Conn
  store : AdvertisementStore Float64 := .empty

abbrev ViewerM := EStateM Exc Viewing

def onViewerConn {α : Type} (x : ConnM α) : ViewerM α := fun s =>
  match x s.conn with
  | .ok a conn => .ok a { s with conn }
  | .error e conn => .error e { s with conn }

structure MeshRegistryViewer where
  channelId : Int := 1

section Viewer

variable (builtins : Builtins) (stack : Nat) (viewer : MeshRegistryViewer) (caller : CallId)

/-- The `try` and its `except`. The header is looked at, but a body without it is read as well. -/
def MeshRegistryViewer.take (advertised : Advertised) : ViewerM Unit :=
  match fromWire builtins stack advertised.msg.body with
  | .ok advert =>
    if advert.isExpired advertised.now then return ()
    else modify fun s => { s with store := s.store.put advert }
  | .error e => if isCaught e then return () else throw e

/-- The ack is the `finally`. -/
def MeshRegistryViewer.handle (advertised : Advertised) : ViewerM Unit := do
  let outcome ← observe (MeshRegistryViewer.take builtins stack advertised)
  onViewerConn (settleDelivery caller (.basicAck viewer.channelId advertised.msg.deliveryTag) advertised.drain)
  lift outcome

def MeshRegistryViewer.loop (all : List Advertised) : ViewerM Unit :=
  all.forM fun advertised => do
    onViewerConn advertised.receive
    viewer.handle builtins stack caller advertised

end Viewer

/-! ## What is well formed -/

section WellFormed

variable (builtins : Builtins) (stack : Nat)

def SpellsObject (body : Bytes) (data : Table) : Prop :=
  ∃ text, decodeUtf8 body = .ok text ∧ Json.loads stack text = .ok (.dict data)

/-- The methods are a list of texts; what is false stands for none. -/
def HasMethods (data : Table) (methods : List Text) : Prop :=
  lookup (Text.ofString "methods") data = some (.list (methods.map .str)) ∨
    methods = [] ∧ ∀ value, lookup (Text.ofString "methods") data = some value → truthy value = false

def HasText (data : Table) (key : String) (t : Text) : Prop :=
  ∃ value, lookup (Text.ofString key) data = some value ∧ builtins.str stack value = .ok t

def HasFloat (data : Table) (key : String) (x : Float64) : Prop :=
  ∃ value, lookup (Text.ofString key) data = some value ∧ builtins.float value = .ok x.bits

structure IsAdvert (data : Table) (advert : Advertisement) : Prop where
  methods : HasMethods data advert.methods
  service : HasText builtins stack data "service" advert.service
  instanceId : HasText builtins stack data "instance_id" advert.instanceId
  queue : HasText builtins stack data "queue" advert.queue
  exchange : HasText builtins stack data "exchange" advert.exchange
  publishedAt : HasFloat builtins data "published_at" advert.publishedAt
  ttlS : HasFloat builtins data "ttl_s" advert.ttlS

/-- The body is this advertisement, well formed and not expired when it is looked at. -/
def Advertised.Brings (advertised : Advertised) (advert : Advertisement) : Prop :=
  (∃ data, SpellsObject stack advertised.msg.body data ∧ IsAdvert builtins stack data advert) ∧
    advert.isExpired advertised.now = false

def TooLarge (data : Table) (key : String) : Prop :=
  ∃ n : Int, lookup (Text.ofString key) data = some (.int n) ∧ Double.nearest n.natAbs 1 = Double.infinity

/-- The object has what comes before the times of an advertisement. -/
structure Named (data : Table) : Prop where
  methods : ∃ methods, HasMethods data methods
  members : ∀ key ∈ ["service", "instance_id", "queue", "exchange"], lookup (Text.ofString key) data ≠ none

/-- A body in JSON is an object that does not nest too deep, and no time that is converted is beyond the doubles. -/
structure Advertised.Readable (advertised : Advertised) : Prop where
  shallow : ∀ text, decodeUtf8 advertised.msg.body = .ok text → Json.loads stack text ≠ .error Json.recursionError
  isObject : ∀ text value, decodeUtf8 advertised.msg.body = .ok text → Json.loads stack text = .ok value →
    ∃ data, value = .dict data
  fits : ∀ data, SpellsObject stack advertised.msg.body data → Named data → ¬TooLarge data "published_at" ∧
    ((∃ x, HasFloat builtins data "published_at" x) → ¬TooLarge data "ttl_s")

/-- The loop comes to its next wait, the store holds what the well-formed and unexpired advertisements leave in it when
they are put there in order, and every delivery is acked. -/
structure Viewed (viewer : MeshRegistryViewer) (caller : CallId) (all : List Advertised) (s t : Viewing) : Prop where
  returns : viewer.loop builtins stack caller all s = .ok () t
  store : ∃ adverts, Picks (Advertised.Brings builtins stack) all adverts ∧
    t.store = adverts.foldl AdvertisementStore.put s.store
  acked : AreAcks viewer.channelId (all.map Advertised.toDelivery) (framesBy caller s.conn t.conn)

end WellFormed

/-! ## What a body is read as -/

section Wire

variable {builtins : Builtins} {stack : Nat} {data : Table} {body : Bytes} {advertised : Advertised} {advert : Advertisement}

theorem fromWire_of_spells (h : SpellsObject stack body data) : fromWire builtins stack body = (do
    let methods ← methodsOf ((lookup (Text.ofString "methods") data).getD .none)
    let service ← textField builtins stack data "service"
    let instanceId ← textField builtins stack data "instance_id"
    let queue ← textField builtins stack data "queue"
    let exchange ← textField builtins stack data "exchange"
    let publishedAt ← floatField builtins data "published_at"
    let ttlS ← floatField builtins data "ttl_s"
    return { service, methods, instanceId, queue, exchange, publishedAt, ttlS }) := by
  obtain ⟨text, htext, hloads⟩ := h
  rw [fromWire, htext, ok_bind, hloads]
  rfl

theorem spells_of_fromWire (h : fromWire builtins stack body = .ok advert) : ∃ data, SpellsObject stack body data := by
  obtain ⟨text, htext, h⟩ := bind_eq_ok.mp h
  obtain ⟨value, hloads, h⟩ := bind_eq_ok.mp h
  split at h
  · exact ⟨_, text, htext, hloads⟩
  · cases h

theorem mapM_eq_texts {f : PyVal → Option Text} (hf : ∀ value t, f value = some t ↔ value = .str t) {items : List PyVal}
    {texts : List Text} : items.mapM f = some texts ↔ items = texts.map .str := by
  induction items generalizing texts with
  | nil => cases texts <;> simp
  | cons item items ih =>
    rw [List.mapM_cons]
    constructor
    · intro h
      obtain ⟨t, ht, h⟩ := Option.bind_eq_some_iff.mp h
      obtain ⟨rest, hrest, h⟩ := Option.bind_eq_some_iff.mp h
      cases h
      rw [(hf item t).mp ht, ih.mp hrest]
      rfl
    · intro h
      cases texts with
      | nil => cases h
      | cons t texts =>
        obtain ⟨rfl, rfl⟩ := List.cons.inj h
        rw [(hf _ t).mpr rfl, ih.mpr rfl]
        rfl

theorem methodsOf_iff {methods : List Text} :
    methodsOf ((lookup (Text.ofString "methods") data).getD .none) = .ok methods ↔ HasMethods data methods := by
  unfold HasMethods methodsOf
  cases hvalue : lookup (Text.ofString "methods") data with
  | none =>
    constructor
    · intro h
      cases h
      exact .inr ⟨rfl, by rintro value ⟨⟩⟩
    · rintro (h | ⟨rfl, -⟩)
      · cases h
      · rfl
  | some value =>
    rw [Option.getD_some]
    dsimp only
    split
    · rename_i htruthy
      have hnot : ¬(methods = [] ∧ ∀ other, some value = some other → truthy other = false) := by
        rintro ⟨-, hfalse⟩
        rw [hfalse value rfl] at htruthy
        cases htruthy
      rw [or_iff_left hnot]
      split
      · rw [orRaise_eq_ok, Option.some_inj, PyVal.list.injEq]
        apply mapM_eq_texts
        intro value t
        cases value <;> simp
      · rename_i hother
        refine iff_of_false (by rintro ⟨⟩) ?_
        intro hlist
        exact hother _ (Option.some.inj hlist)
    · rename_i hfalse
      constructor
      · intro h
        cases h
        refine .inr ⟨rfl, ?_⟩
        rintro other ⟨⟩
        exact Bool.eq_false_of_not_eq_true hfalse
      · rintro (hlist | ⟨rfl, -⟩)
        · obtain rfl := Option.some.inj hlist
          cases methods with
          | nil => rfl
          | cons method methods => exact absurd rfl hfalse
        · rfl

theorem textField_iff {key : String} {t : Text} :
    textField builtins stack data key = .ok t ↔ HasText builtins stack data key t := by
  rw [textField, bind_eq_ok]
  exact exists_congr fun value => and_congr_left' orRaise_eq_ok

theorem floatField_iff {key : String} {x : Float64} :
    floatField builtins data key = .ok x ↔ HasFloat builtins data key x := by
  rw [floatField, bind_eq_ok]
  refine exists_congr fun value => and_congr orRaise_eq_ok ?_
  rw [bind_eq_ok]
  constructor
  · rintro ⟨bits, hbits, h⟩
    cases h
    exact hbits
  · intro hbits
    exact ⟨x.bits, hbits, rfl⟩

theorem fromWire_iff : fromWire builtins stack body = .ok advert ↔
    ∃ data, SpellsObject stack body data ∧ IsAdvert builtins stack data advert := by
  constructor
  · intro h
    obtain ⟨data, hspells⟩ := spells_of_fromWire h
    rw [fromWire_of_spells hspells] at h
    obtain ⟨methods, hmethods, h⟩ := bind_eq_ok.mp h
    obtain ⟨service, hservice, h⟩ := bind_eq_ok.mp h
    obtain ⟨instanceId, hinstance, h⟩ := bind_eq_ok.mp h
    obtain ⟨queue, hqueue, h⟩ := bind_eq_ok.mp h
    obtain ⟨exchange, hexchange, h⟩ := bind_eq_ok.mp h
    obtain ⟨publishedAt, hpublished, h⟩ := bind_eq_ok.mp h
    obtain ⟨ttlS, httl, h⟩ := bind_eq_ok.mp h
    cases h
    exact ⟨data, hspells, methodsOf_iff.mp hmethods, textField_iff.mp hservice, textField_iff.mp hinstance,
      textField_iff.mp hqueue, textField_iff.mp hexchange, floatField_iff.mp hpublished, floatField_iff.mp httl⟩
  · rintro ⟨data, hspells, hadvert⟩
    rw [fromWire_of_spells hspells, methodsOf_iff.mpr hadvert.methods, ok_bind, textField_iff.mpr hadvert.service, ok_bind,
      textField_iff.mpr hadvert.instanceId, ok_bind, textField_iff.mpr hadvert.queue, ok_bind,
      textField_iff.mpr hadvert.exchange, ok_bind, floatField_iff.mpr hadvert.publishedAt, ok_bind,
      floatField_iff.mpr hadvert.ttlS]
    rfl

end Wire

section Wire

variable {builtins : Builtins} {stack : Nat} {data : Table} {body : Bytes} {advertised : Advertised}

def Advertised.advert (builtins : Builtins) (stack : Nat) (advertised : Advertised) : Option Advertisement :=
  (fromWire builtins stack advertised.msg.body).toOption.filter fun advert => !advert.isExpired advertised.now

theorem advert_iff {advert : Advertisement} :
    advertised.advert builtins stack = some advert ↔ advertised.Brings builtins stack advert := by
  rw [Advertised.advert, Option.filter_eq_some_iff, toOption_eq_some, fromWire_iff, Advertised.Brings, Bool.not_eq_true']

theorem picks_advert (builtins : Builtins) (stack : Nat) (all : List Advertised) :
    Picks (Advertised.Brings builtins stack) all (all.filterMap (Advertised.advert builtins stack)) :=
  picks_filterMap (fun _ _ => advert_iff) all

/-! ## What a body raises -/

theorem caught_decodeUtf8 (body : Bytes) : Raises (fun e => isCaught e = true) (decodeUtf8 body) := by
  unfold decodeUtf8
  split
  · exact raises_ok _
  · exact raises_error rfl

theorem caught_methodsOf (value : PyVal) : Raises (fun e => isCaught e = true) (methodsOf value) := by
  unfold methodsOf
  dsimp only
  split
  · split
    · exact raises_orRaise rfl
    · exact raises_error rfl
  · exact raises_ok _

theorem caught_textField (key : String) (h : Json.Loaded stack (.dict data)) :
    Raises (fun e => isCaught e = true) (textField builtins stack data key) := by
  refine raises_bind (raises_orRaise rfl) ?_
  intro value hvalue
  obtain ⟨t, ht⟩ := builtins.str_of_loaded (Json.loaded_lookup h (orRaise_eq_ok.mp hvalue))
  rw [ht]
  exact raises_ok t

theorem caught_float (builtins : Builtins) (value : PyVal) : Raises (fun e => isCaught e = true) (builtins.float value) ↔
    ¬∃ n : Int, value = .int n ∧ Double.nearest n.natAbs 1 = Double.infinity := by
  cases value with
  | int n =>
    rw [Builtins.float, Builtins.floatOfInt]
    by_cases hlarge : Double.nearest n.natAbs 1 = Double.infinity
    · rw [raiseIf_of hlarge]
      refine iff_of_false (fun h => Bool.false_ne_true (h _ rfl)) (not_not.mpr ⟨n, rfl, hlarge⟩)
    · rw [raiseIf_of_not hlarge]
      refine iff_of_true (raises_ok _) ?_
      rintro ⟨m, hm, hlarge'⟩
      cases hm
      exact hlarge hlarge'
  | bool b => cases b <;> exact iff_of_true (raises_ok _) (by rintro ⟨n, ⟨⟩, -⟩)
  | float bits => exact iff_of_true (raises_ok _) (by rintro ⟨n, ⟨⟩, -⟩)
  | str t => exact iff_of_true (raises_orRaise rfl) (by rintro ⟨n, ⟨⟩, -⟩)
  | _ => exact iff_of_true (raises_error rfl) (by rintro ⟨n, ⟨⟩, -⟩)

theorem caught_floatField (key : String) :
    Raises (fun e => isCaught e = true) (floatField builtins data key) ↔ ¬TooLarge data key := by
  have hlookup : Raises (fun e => isCaught e = true) (orRaise .keyError (lookup (Text.ofString key) data)) := raises_orRaise rfl
  rw [floatField, raises_bind_iff, and_iff_right hlookup, TooLarge]
  cases hvalue : lookup (Text.ofString key) data with
  | none =>
    refine iff_of_true (by rintro value ⟨⟩) ?_
    rintro ⟨n, hn, -⟩
    cases hn
  | some value =>
    simp only [Option.some_inj]
    rw [← caught_float builtins value]
    constructor
    · intro h
      exact (raises_bind_iff.mp (h value rfl)).1
    · rintro h a ha
      cases ha
      exact raises_bind h fun bits _ => raises_ok _

theorem exists_text (builtins : Builtins) {key : String} (hread : Json.Loaded stack (.dict data)) (hkey : lookup (Text.ofString key) data ≠ none) :
    ∃ t, textField builtins stack data key = .ok t := by
  obtain ⟨value, hvalue⟩ := Option.ne_none_iff_exists'.mp hkey
  obtain ⟨t, ht⟩ := builtins.str_of_loaded (Json.loaded_lookup hread hvalue)
  exact ⟨t, textField_iff.mpr ⟨value, hvalue, ht⟩⟩

theorem present_of_text {key : String} {t : Text} (h : textField builtins stack data key = .ok t) :
    lookup (Text.ofString key) data ≠ none := by
  obtain ⟨value, hvalue, -⟩ := textField_iff.mp h
  rw [hvalue]
  exact Option.some_ne_none value

/-- The times are converted last, and only the first of them when it raises. -/
theorem caught_fromWire (h : SpellsObject stack body data) : Raises (fun e => isCaught e = true) (fromWire builtins stack body) ↔
    (Named data → ¬TooLarge data "published_at" ∧
      ((∃ x, HasFloat builtins data "published_at" x) → ¬TooLarge data "ttl_s")) := by
  have hread : Json.Loaded stack (.dict data) := by
    obtain ⟨text, -, hloads⟩ := h
    exact Json.loaded_of_loads hloads
  rw [fromWire_of_spells h]
  constructor
  · rintro hraises ⟨⟨methods, hmethods⟩, hmembers⟩
    simp only [List.forall_mem_cons] at hmembers
    obtain ⟨hservice, hinstance, hqueue, hexchange, -⟩ := hmembers
    obtain ⟨service, hservice⟩ := exists_text builtins hread hservice
    obtain ⟨instanceId, hinstance⟩ := exists_text builtins hread hinstance
    obtain ⟨queue, hqueue⟩ := exists_text builtins hread hqueue
    obtain ⟨exchange, hexchange⟩ := exists_text builtins hread hexchange
    rw [methodsOf_iff.mpr hmethods, ok_bind, hservice, ok_bind, hinstance, ok_bind, hqueue, ok_bind, hexchange, ok_bind,
      raises_bind_iff] at hraises
    obtain ⟨hpublished, hrest⟩ := hraises
    refine ⟨(caught_floatField _).mp hpublished, ?_⟩
    rintro ⟨x, hx⟩
    have httl := raises_bind_iff.mp (hrest x (floatField_iff.mpr hx))
    exact (caught_floatField _).mp httl.1
  · intro hfits
    refine raises_bind (caught_methodsOf _) fun methods hmethods => ?_
    refine raises_bind (caught_textField _ hread) fun service hservice => ?_
    refine raises_bind (caught_textField _ hread) fun instanceId hinstance => ?_
    refine raises_bind (caught_textField _ hread) fun queue hqueue => ?_
    refine raises_bind (caught_textField _ hread) fun exchange hexchange => ?_
    obtain ⟨hpublished, httl⟩ := hfits ⟨⟨methods, methodsOf_iff.mp hmethods⟩, by
      simp only [List.forall_mem_cons]
      exact ⟨present_of_text hservice, present_of_text hinstance, present_of_text hqueue, present_of_text hexchange, by simp⟩⟩
    refine raises_bind ((caught_floatField _).mpr hpublished) fun publishedAt hx => ?_
    refine raises_bind ((caught_floatField _).mpr (httl ⟨publishedAt, floatField_iff.mp hx⟩)) fun ttlS _ => ?_
    exact raises_ok _

theorem readable_iff :
    advertised.Readable builtins stack ↔ Raises (fun e => isCaught e = true) (fromWire builtins stack advertised.msg.body) := by
  constructor
  · rintro ⟨hshallow, hobject, hfits⟩
    rcases ok_or_error (decodeUtf8 advertised.msg.body) with ⟨text, htext⟩ | ⟨e, he⟩
    · rcases ok_or_error (Json.loads stack text) with ⟨value, hloads⟩ | ⟨e, he⟩
      · obtain ⟨data, rfl⟩ := hobject text value htext hloads
        have hspells : SpellsObject stack advertised.msg.body data := ⟨text, htext, hloads⟩
        exact (caught_fromWire hspells).mpr (hfits data hspells)
      · rw [fromWire, htext, ok_bind, he]
        apply raises_error
        cases Json.raises_loads stack text e he with
        | unreadable => rfl
        | tooDeep => exact absurd he (hshallow text htext)
        | value reason => rfl
    · have hutf8 := caught_decodeUtf8 advertised.msg.body
      rw [he] at hutf8
      rw [fromWire, he]
      exact raises_error (hutf8 e rfl)
  · intro hraises
    refine ⟨?_, ?_, ?_⟩
    · intro text htext hloads
      have hdeep : fromWire builtins stack advertised.msg.body = .error Json.recursionError := by
        rw [fromWire, htext, ok_bind, hloads]
        rfl
      cases hraises _ hdeep
    · intro text value htext hloads
      rw [fromWire, htext, ok_bind, hloads] at hraises
      cases value with
      | dict data => exact ⟨data, rfl⟩
      | _ => cases hraises _ rfl
    · intro data hspells
      exact (caught_fromWire hspells).mp hraises

end Wire

section Round

variable {builtins : Builtins} {stack : Nat} {viewer : MeshRegistryViewer} {caller : CallId} {advertised : Advertised}
  {s t : Viewing}

theorem onViewerConn_ok {α : Type} {x : ConnM α} {a : α} {conn' : Conn} (h : x s.conn = .ok a conn') :
    onViewerConn x s = .ok a { s with conn := conn' } := by
  rw [onViewerConn, h]

theorem onViewerConn_error {α : Type} {x : ConnM α} {e : Exc} {conn' : Conn} (h : x s.conn = .error e conn') :
    onViewerConn x s = .error e { s with conn := conn' } := by
  rw [onViewerConn, h]

structure ViewStep (builtins : Builtins) (stack : Nat) (channel : Int) (caller : CallId) (advertised : Advertised)
    (s t : Viewing) : Prop where
  store : t.store = (advertised.advert builtins stack).toList.foldl AdvertisementStore.put s.store
  acked : Acked channel caller advertised.toDelivery s.conn t.conn

theorem take_ends (builtins : Builtins) (stack : Nat) (advertised : Advertised) (s : Viewing) : ∃ outcome,
    observe (MeshRegistryViewer.take builtins stack advertised) s = .ok outcome
      { s with store := (advertised.advert builtins stack).toList.foldl AdvertisementStore.put s.store } ∧
    (outcome = .ok () ↔ advertised.Readable builtins stack) := by
  rw [readable_iff]
  unfold MeshRegistryViewer.take Advertised.advert
  cases hwire : fromWire builtins stack advertised.msg.body with
  | ok advert =>
    refine ⟨.ok (), ?_, iff_of_true rfl (raises_ok _)⟩
    cases hexpired : advert.isExpired advertised.now with
    | true =>
      rw [toOption_ok, Option.filter_some, if_neg (by simp [hexpired])]
      simp only [hexpired, if_true]
      rfl
    | false =>
      rw [toOption_ok, Option.filter_some, if_pos (by simp [hexpired])]
      simp only [hexpired, Bool.false_eq_true, if_false]
      rfl
  | error e =>
    dsimp only
    cases hcaught : isCaught e with
    | true => exact ⟨.ok (), rfl, iff_of_true rfl (raises_error hcaught)⟩
    | false =>
      refine ⟨.error e, rfl, ?_⟩
      constructor
      · intro h
        cases h
      · intro h
        rw [h e rfl] at hcaught
        cases hcaught

theorem viewer_roundEnds (builtins : Builtins) (stack frameMax : Nat)
    (hlive : advertised.toDelivery.Live viewer.channelId caller) :
    RoundEnds (fun advertised => do onViewerConn advertised.receive; viewer.handle builtins stack caller advertised)
      (fun (_ : PUnit.{1}) s => Open viewer.channelId frameMax s.conn)
      (fun _ advertised => advertised.Readable builtins stack ∧
        advertised.toDelivery.Ackable frameMax viewer.channelId)
      (fun view _ => view) (ViewStep builtins stack viewer.channelId caller) advertised where
  returns {view s} hinv hfits := by
    obtain ⟨taken, hreceive, hreceived⟩ := hlive.receive s.conn
    obtain ⟨outcome, hobserve, hreadable⟩ := take_ends builtins stack advertised { s with conn := taken }
    obtain ⟨acked, hack, ⟨frame, hmethod, hwrote⟩, hopen⟩ := ack_returns hlive.drain (hinv.calm hreceived) hfits.2
    have hreturned := hreadable.mpr hfits.1
    refine ⟨{ conn := acked, store := (advertised.advert builtins stack).toList.foldl AdvertisementStore.put s.store }, ?_,
      ⟨rfl, frame, hmethod, hreceived.others.trans hwrote⟩, hopen⟩
    rw [bind_run_ok (onViewerConn_ok hreceive), MeshRegistryViewer.handle, bind_run_ok hobserve,
      bind_run_ok (onViewerConn_ok hack), hreturned]
    rfl
  raises {view s} hinv hnot := by
    obtain ⟨taken, hreceive, hreceived⟩ := hlive.receive s.conn
    obtain ⟨outcome, hobserve, hreadable⟩ := take_ends builtins stack advertised { s with conn := taken }
    have hopen := hinv.calm hreceived
    rw [bind_run_ok (onViewerConn_ok hreceive), MeshRegistryViewer.handle, bind_run_ok hobserve]
    by_cases hfits : advertised.toDelivery.Ackable frameMax viewer.channelId
    · obtain ⟨acked, hack, -⟩ := ack_returns hlive.drain hopen hfits
      rw [bind_run_ok (onViewerConn_ok hack)]
      cases outcome with
      | ok u => exact absurd ⟨hreadable.mp rfl, hfits⟩ hnot
      | error e => exact ⟨e, _, rfl⟩
    · obtain ⟨e, herror⟩ := ack_raises caller hopen hfits
      exact ⟨e, _, bind_run_error (onViewerConn_error herror)⟩

theorem store_of_rounds {channel : Int} {all : List Advertised}
    (h : Rounds (ViewStep builtins stack channel caller) all s t) :
    t.store = (all.filterMap (Advertised.advert builtins stack)).foldl AdvertisementStore.put s.store := by
  induction h with
  | nil s => rfl
  | @cons advertised rest s t u hstep _ ih =>
    rw [ih, hstep.store, List.filterMap_cons]
    cases advertised.advert builtins stack with
    | none => rfl
    | some advert => rfl

end Round

/-- On a connection that stays up the viewer takes every sequence of deliveries exactly if their bodies are readable,
and each ack fits. -/
theorem viewed_iff (builtins : Builtins) (stack : Nat) (viewer : MeshRegistryViewer) (caller : CallId)
    {all : List Advertised} (hlive : ∀ advertised ∈ all, advertised.toDelivery.Live viewer.channelId caller)
    {s : Viewing} (hopen : s.conn.channels.get? viewer.channelId = some .open) :
    (∃ t, Viewed builtins stack viewer caller all s t) ↔ ∀ advertised ∈ all,
      advertised.Readable builtins stack ∧ advertised.toDelivery.Ackable s.conn.frameMax viewer.channelId := by
  have hends : ∀ advertised ∈ all, _ := fun advertised hmem =>
    viewer_roundEnds builtins stack s.conn.frameMax (hlive advertised hmem)
  have hall := forM_returns_iff ⟨⟩ hends ⟨hopen, rfl⟩
    (P := fun t => (∃ adverts, Picks (Advertised.Brings builtins stack) all adverts ∧
      t.store = adverts.foldl AdvertisementStore.put s.store) ∧
      AreAcks viewer.channelId (all.map Advertised.toDelivery) (framesBy caller s.conn t.conn))
    fun t hrounds => ⟨⟨_, picks_advert builtins stack all, store_of_rounds hrounds⟩, areAcks_of_rounds Advertised.toDelivery Viewing.conn
      (fun advertised s t hstep => hstep.acked) hrounds⟩
  rw [allFit_const] at hall
  rw [← hall]
  constructor
  · rintro ⟨t, hrun, hstore, hacked⟩
    exact ⟨t, hrun, hstore, hacked⟩
  · rintro ⟨t, hrun, hstore, hacked⟩
    exact ⟨t, hrun, hstore, hacked⟩

def advertisedOf (body : String) : Advertised where
  receive := pure ()
  msg := { deliveryTag := 1, exchange := [], routingKey := [], redelivered := false, consumerTag := [],
           body := body.toUTF8.toList
           properties := Properties.empty }
  drain := pure ()
  now := ⟨0⟩

theorem live_advertisedOf (body : String) : (advertisedOf body).toDelivery.Live 1 0 where
  receive := staysCalm_pure 1 0
  drain := staysCalm_pure 1 0

def orders : Advertised := advertisedOf
  "\x7b\"service\":\"orders\",\"instance_id\":\"1\",\"queue\":\"q\",\"exchange\":\"e\",\"published_at\":1,\"ttl_s\":60\x7d"

def ordersAdvert : Advertisement where
  service := Text.ofString "orders"
  methods := []
  instanceId := Text.ofString "1"
  queue := Text.ofString "q"
  exchange := Text.ofString "e"
  publishedAt := ⟨0x3ff0000000000000⟩
  ttlS := ⟨0x404e000000000000⟩

theorem advert_orders : orders.advert Builtins.ascii 9 = some ordersAdvert := by decide +kernel

theorem brings_orders (advert : Advertisement) : orders.Brings Builtins.ascii 9 advert ↔ advert = ordersAdvert := by
  rw [← advert_iff, advert_orders, Option.some_inj, eq_comm]

theorem readable_orders : ∀ advertised ∈ [orders], advertised.Readable Builtins.ascii 9 ∧
    advertised.toDelivery.Ackable confirmingConn.frameMax 1 := by
  intro advertised hadvertised
  obtain rfl := List.mem_singleton.mp hadvertised
  have hwire : fromWire Builtins.ascii 9 orders.msg.body = .ok ordersAdvert :=
    toOption_eq_some.mp (Option.filter_eq_some_iff.mp advert_orders).1
  rw [readable_iff, hwire]
  refine ⟨raises_ok _, ?_⟩
  unfold Delivery.Ackable
  decide +kernel

/-- It is taken, and found in the store. -/
theorem orders_viewed : ∃ t, Viewed Builtins.ascii 9 {} 0 [orders] ⟨confirmingConn, .empty⟩ t ∧
    t.store.byService.get? (Text.ofString "orders") = some ordersAdvert := by
  have hlive : ∀ advertised ∈ [orders], advertised.toDelivery.Live 1 0 := by
    intro advertised hadvertised
    obtain rfl := List.mem_singleton.mp hadvertised
    exact live_advertisedOf _
  obtain ⟨t, hviewed⟩ : ∃ t, Viewed Builtins.ascii 9 {} 0 [orders] ⟨confirmingConn, .empty⟩ t :=
    (viewed_iff Builtins.ascii 9 {} 0 hlive (by decide)).mpr readable_orders
  refine ⟨t, hviewed, ?_⟩
  obtain ⟨adverts, hpicks, hstore⟩ := hviewed.store
  cases hpicks with
  | skip hskip _ => exact absurd ((brings_orders _).mpr rfl) (hskip _)
  | pick hpick hrest =>
    cases hrest
    rw [hstore, (brings_orders _).mp hpick]
    rfl

/-- A body that is no object is acked, and ends the loop. -/
theorem array_not_viewed : (advertisedOf "[]").toDelivery.Live 1 0 ∧
    ¬∃ t, Viewed Builtins.ascii 9 {} 0 [advertisedOf "[]"] ⟨confirmingConn, .empty⟩ t := by
  refine ⟨live_advertisedOf "[]", ?_⟩
  rintro ⟨t, hreturns, -⟩
  have hraises : endsRaising
      (MeshRegistryViewer.loop Builtins.ascii 9 {} 0 [advertisedOf "[]"] ⟨confirmingConn, .empty⟩) = true := by
    decide +kernel
  rw [hreturns] at hraises
  contradiction

end Nuropb.Patterns
