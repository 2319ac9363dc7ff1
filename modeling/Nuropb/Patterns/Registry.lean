import Mathlib.Data.List.Lex
import Mathlib.Data.List.MinMax
import Mathlib.Data.List.Sort
import Mathlib.Data.Rat.Defs
import Mathlib.Algebra.Order.Ring.Rat
import Nuropb.Library.Dict
import Nuropb.Library.Text

/-! # The registry of services

A store maps each service to the advertisement that was put last, and forgets it when it expires. Whether that is
the latest one depends on the order of arrival.
-/
namespace Nuropb.Patterns

open Library

/-- The announcement of a service; `τ` is the type of times. -/
structure ServiceAdvertisement (τ : Type) where
  service : Text
  methods : List Text
  instanceId : Text
  queue : Text
  exchange : Text
  publishedAt : τ
  ttlS : τ
  deriving DecidableEq

namespace ServiceAdvertisement

variable {τ : Type} [Add τ]

def expiresAt (advert : ServiceAdvertisement τ) : τ := advert.publishedAt + advert.ttlS

def isExpired [LE τ] [DecidableLE τ] (advert : ServiceAdvertisement τ) (now : τ) : Bool := advert.expiresAt ≤ now

end ServiceAdvertisement

/-- The order of `str`, by code points. -/
def orderOf (t : Text) : List Nat := t.map CodePoint.number

theorem orderOf_injective : Function.Injective orderOf := List.map_injective_iff.mpr CodePoint.number_injective

structure AdvertisementStore (τ : Type) where
  byService : Dict Text (ServiceAdvertisement τ)
  keyed : ∀ service advert, byService.get? service = some advert → advert.service = service

namespace AdvertisementStore

variable {τ : Type}

def empty : AdvertisementStore τ where
  byService := .empty
  keyed service advert h := by
    rw [Dict.get?_empty] at h
    cases h

def put (store : AdvertisementStore τ) (advert : ServiceAdvertisement τ) : AdvertisementStore τ where
  byService := store.byService.set advert.service advert
  keyed service found h := by
    rw [Dict.get?_set] at h
    split at h
    · cases h
      assumption
    · exact store.keyed service found h

section Times

variable [Add τ] [LE τ] [DecidableLE τ]

def expired (store : AdvertisementStore τ) (now : τ) : List Text :=
  (store.byService.entries.filter fun entry => entry.2.isExpired now).map Prod.fst

theorem mem_expired {store : AdvertisementStore τ} {now : τ} {service : Text} :
    service ∈ store.expired now ↔ ∃ advert, store.byService.get? service = some advert ∧ advert.isExpired now = true := by
  simp [expired, Dict.mem_entries_iff]

theorem get?_pruned (store : AdvertisementStore τ) (now : τ) (service : Text) :
    ((store.expired now).foldl Dict.erase store.byService).get? service =
      (store.byService.get? service).filter fun advert => !advert.isExpired now := by
  rw [Dict.get?_foldl_erase]
  cases hfound : store.byService.get? service with
  | none => simp
  | some advert =>
    have hmem : service ∈ store.expired now ↔ advert.isExpired now = true := by
      rw [mem_expired, hfound]
      simp
    by_cases hexpired : advert.isExpired now = true
    · rw [if_pos (hmem.mpr hexpired), Option.filter_some, if_neg (by simp [hexpired])]
    · rw [if_neg (mt hmem.mp hexpired), Option.filter_some, if_pos (by simpa using hexpired)]

def prune (store : AdvertisementStore τ) (now : τ) : AdvertisementStore τ where
  byService := (store.expired now).foldl Dict.erase store.byService
  keyed service advert h := by
    rw [get?_pruned] at h
    exact store.keyed service advert (Option.filter_eq_some_iff.mp h).1

/-- The advertisement of a service, and the store without what has expired. -/
def lookup (store : AdvertisementStore τ) (service : Text) (now : τ) :
    Option (ServiceAdvertisement τ) × AdvertisementStore τ :=
  ((store.prune now).byService.get? service, store.prune now)

/-- The advertisements in the order of their services, and the store without what has expired. -/
def listServices (store : AdvertisementStore τ) (now : τ) : List (ServiceAdvertisement τ) × AdvertisementStore τ :=
  ((store.prune now).byService.values.insertionSort fun a b => orderOf a.service ≤ orderOf b.service, store.prune now)

theorem lookup_eq (store : AdvertisementStore τ) (service : Text) (now : τ) :
    (store.lookup service now).1 = (store.byService.get? service).filter fun advert => !advert.isExpired now :=
  get?_pruned store now service

theorem mem_listServices {store : AdvertisementStore τ} {now : τ} {advert : ServiceAdvertisement τ} :
    advert ∈ (store.listServices now).1 ↔ (store.lookup advert.service now).1 = some advert := by
  rw [listServices, List.mem_insertionSort, Dict.mem_values_iff]
  constructor
  · rintro ⟨service, hfound⟩
    obtain rfl := (store.prune now).keyed service advert hfound
    exact hfound
  · intro hfound
    exact ⟨advert.service, hfound⟩

theorem not_expired_of_lookup {store : AdvertisementStore τ} {service : Text} {now : τ}
    {advert : ServiceAdvertisement τ} (h : (store.lookup service now).1 = some advert) :
    advert.service = service ∧ advert.isExpired now = false := by
  constructor
  · exact (store.prune now).keyed service advert h
  · rw [lookup_eq] at h
    simpa using (Option.filter_eq_some_iff.mp h).2

theorem sorted_listServices (store : AdvertisementStore τ) (now : τ) :
    (store.listServices now).1.Pairwise fun a b => orderOf a.service < orderOf b.service := by
  have hkeys : (store.prune now).byService.values.map ServiceAdvertisement.service = (store.prune now).byService.keys := by
    rw [Dict.values, Dict.keys, List.map_map]
    apply List.map_congr_left
    intro entry hentry
    exact (store.prune now).keyed entry.1 entry.2 (Dict.mem_entries_iff.mp hentry)
  have hnodup : ((store.prune now).byService.values.map ServiceAdvertisement.service).Nodup := by
    rw [hkeys]
    exact (store.prune now).byService.nodup
  have hdistinct : (store.listServices now).1.Pairwise fun a b => a.service ≠ b.service := by
    have hperm := (List.perm_insertionSort (fun a b => orderOf a.service ≤ orderOf b.service)
      (store.prune now).byService.values).map ServiceAdvertisement.service
    exact List.pairwise_map.mp (hperm.nodup_iff.mpr hnodup)
  have hsorted : (store.listServices now).1.Pairwise fun a b => orderOf a.service ≤ orderOf b.service := by
    have htotal : Std.Total fun a b : ServiceAdvertisement τ => orderOf a.service ≤ orderOf b.service :=
      ⟨fun a b => le_total _ _⟩
    have htrans : IsTrans (ServiceAdvertisement τ) fun a b => orderOf a.service ≤ orderOf b.service :=
      ⟨fun a b c => le_trans⟩
    exact List.pairwise_insertionSort _ _
  refine (hsorted.and hdistinct).imp ?_
  rintro a b ⟨hle, hne⟩
  exact lt_of_le_of_ne hle (orderOf_injective.ne hne)

end Times

end AdvertisementStore

/-! ## Runs -/

inductive StoreOp (τ : Type)
  | put (advert : ServiceAdvertisement τ)
  | lookup (service : Text) (now : τ)
  | listServices (now : τ)

namespace StoreOp

variable {τ : Type}

def time : StoreOp τ → Option τ
  | .put _ => none
  | .lookup _ now | .listServices now => some now

def advert : StoreOp τ → Option (ServiceAdvertisement τ)
  | .put advert => some advert
  | .lookup .. | .listServices _ => none

def run [Add τ] [LE τ] [DecidableLE τ] (store : AdvertisementStore τ) : StoreOp τ → AdvertisementStore τ
  | .put advert => store.put advert
  | .lookup service now => (store.lookup service now).2
  | .listServices now => (store.listServices now).2

end StoreOp

section Latest

variable {τ : Type} {puts : List (ServiceAdvertisement τ)}

def lastPut (service : Text) (puts : List (ServiceAdvertisement τ)) : Option (ServiceAdvertisement τ) :=
  (puts.filter fun advert => advert.service = service).getLast?

theorem lastPut_cons (service : Text) (advert : ServiceAdvertisement τ) (puts : List (ServiceAdvertisement τ)) :
    lastPut service (advert :: puts) =
      (lastPut service puts).or (if advert.service = service then some advert else none) := by
  unfold lastPut
  by_cases h : advert.service = service
  · rw [List.filter_cons_of_pos (by simpa using h), if_pos h, List.getLast?_cons]
    cases (puts.filter fun advert => advert.service = service).getLast? with
    | none => rfl
    | some last => rfl
  · rw [List.filter_cons_of_neg (by simpa using h), if_neg h, Option.or_none]

theorem mem_of_lastPut {service : Text} {last : ServiceAdvertisement τ} (h : lastPut service puts = some last) :
    last ∈ puts ∧ last.service = service := by
  have hmem := List.mem_filter.mp (List.mem_of_getLast? h)
  exact ⟨hmem.1, of_decide_eq_true hmem.2⟩

theorem lastPut_of_mem {advert : ServiceAdvertisement τ} (h : advert ∈ puts) :
    ∃ last, lastPut advert.service puts = some last := by
  have hmem : advert ∈ puts.filter fun other => other.service = advert.service :=
    List.mem_filter.mpr ⟨h, decide_eq_true rfl⟩
  exact ⟨_, List.getLast?_eq_some_getLast (List.ne_nil_of_mem hmem)⟩

variable [LinearOrder τ]

/-- No other advertisement of the service was published later. -/
def IsLatest (puts : List (ServiceAdvertisement τ)) (advert : ServiceAdvertisement τ) : Prop :=
  advert ∈ puts ∧ ∀ other ∈ puts, other.service = advert.service → other.publishedAt ≤ advert.publishedAt

theorem exists_latest {advert : ServiceAdvertisement τ} (h : advert ∈ puts) :
    ∃ latest, IsLatest puts latest ∧ latest.service = advert.service := by
  obtain ⟨latest, hlatest⟩ : ∃ latest,
      (puts.filter fun other => other.service = advert.service).argmax ServiceAdvertisement.publishedAt = some latest := by
    have hmem : advert ∈ puts.filter fun other => other.service = advert.service :=
      List.mem_filter.mpr ⟨h, decide_eq_true rfl⟩
    apply Option.ne_none_iff_exists'.mp
    rw [Ne, List.argmax_eq_none]
    exact List.ne_nil_of_mem hmem
  obtain ⟨hmem, hservice⟩ := List.mem_filter.mp (List.argmax_mem hlatest)
  have hservice := of_decide_eq_true hservice
  refine ⟨latest, ⟨hmem, ?_⟩, hservice⟩
  intro other hother hsame
  exact List.le_of_mem_argmax (List.mem_filter.mpr ⟨hother, decide_eq_true (hsame.trans hservice)⟩) hlatest

/-- With distinct times there is one latest advertisement of a service. -/
theorem latest_unique (hdistinct : (puts.map ServiceAdvertisement.publishedAt).Nodup)
    {latest other : ServiceAdvertisement τ} (h : IsLatest puts latest) (h' : IsLatest puts other)
    (hservice : latest.service = other.service) : latest = other := by
  apply List.inj_on_of_nodup_map hdistinct h.1 h'.1
  exact le_antisymm (h'.2 latest h.1 hservice) (h.2 other h'.1 hservice.symm)

end Latest

section Runs

variable {τ : Type} [Add τ] [LinearOrder τ]

def storeAfter (ops : List (StoreOp τ)) : AdvertisementStore τ := ops.foldl StoreOp.run .empty

def adverts (ops : List (StoreOp τ)) : List (ServiceAdvertisement τ) := ops.filterMap StoreOp.advert

/-- What is found of a service is its latest advertisement, if that has not expired. -/
def FindsLatest (puts : List (ServiceAdvertisement τ)) (now : τ) (store : AdvertisementStore τ) : Prop :=
  ∀ service advert, (store.lookup service now).1 = some advert ↔
    advert.service = service ∧ IsLatest puts advert ∧ advert.isExpired now = false

/-- The last advertisement of a service is its latest one, or neither is of use any more. -/
def LastIsLatest (puts : List (ServiceAdvertisement τ)) (now : τ) : Prop :=
  ∀ last latest, lastPut latest.service puts = some last → IsLatest puts latest →
    last = latest ∨ last.isExpired now = true ∧ latest.isExpired now = true

/-- Both runs answer alike, with the latest advertisements. -/
structure Converges (now : τ) (ops ops' : List (StoreOp τ)) : Prop where
  finds : FindsLatest (adverts ops) now (storeAfter ops)
  finds' : FindsLatest (adverts ops) now (storeAfter ops')
  lists : ((storeAfter ops).listServices now).1 = ((storeAfter ops').listServices now).1
  unexpired : ∀ advert ∈ ((storeAfter ops).listServices now).1, advert.isExpired now = false
  sorted : ((storeAfter ops).listServices now).1.Pairwise fun a b => orderOf a.service < orderOf b.service

end Runs

section Order

variable {τ : Type} [Add τ] [LinearOrder τ] {now : τ} {ops ops' : List (StoreOp τ)}
  {puts puts' : List (ServiceAdvertisement τ)}

theorem isExpired_mono {advert : ServiceAdvertisement τ} {earlier : τ} (hle : earlier ≤ now)
    (h : advert.isExpired earlier = true) : advert.isExpired now = true :=
  decide_eq_true ((of_decide_eq_true h).trans hle)

theorem filter_pruned {earlier : τ} (hle : earlier ≤ now) (found : Option (ServiceAdvertisement τ)) :
    (found.filter fun advert => !advert.isExpired earlier).filter (fun advert => !advert.isExpired now) =
      found.filter fun advert => !advert.isExpired now := by
  cases found with
  | none => rfl
  | some advert =>
    cases hearlier : advert.isExpired earlier with
    | false => simp [Option.filter_some, hearlier]
    | true => simp [Option.filter_some, hearlier, isExpired_mono hle hearlier]

theorem or_filter_pruned {earlier : τ} (hle : earlier ≤ now) (last found : Option (ServiceAdvertisement τ)) :
    (last.or (found.filter fun advert => !advert.isExpired earlier)).filter (fun advert => !advert.isExpired now) =
      (last.or found).filter fun advert => !advert.isExpired now := by
  cases last with
  | none => exact filter_pruned hle found
  | some advert => rfl

/-- From any store on: what is found is what was put last, if that has not expired. -/
theorem lookup_foldl (store : AdvertisementStore τ) (service : Text)
    (htimes : ∀ op ∈ ops, ∀ t, op.time = some t → t ≤ now) :
    ((ops.foldl StoreOp.run store).lookup service now).1 =
      ((lastPut service (adverts ops)).or (store.byService.get? service)).filter fun advert => !advert.isExpired now := by
  induction ops generalizing store with
  | nil => exact store.lookup_eq service now
  | cons op ops ih =>
    have hrest := ih (op.run store) fun op hop => htimes op (List.mem_cons_of_mem _ hop)
    rw [List.foldl_cons, hrest]
    cases op with
    | put advert =>
      have hadverts : adverts (.put advert :: ops) = advert :: adverts ops := rfl
      have hfound : (store.put advert).byService.get? service =
          (if advert.service = service then some advert else none).or (store.byService.get? service) := by
        refine (Dict.get?_set _ _ _ _).trans ?_
        split
        · rfl
        · rfl
      rw [hadverts, lastPut_cons, Option.or_assoc, ← hfound]
      rfl
    | lookup asked earlier =>
      have hle : earlier ≤ now := htimes _ List.mem_cons_self earlier rfl
      have hpruned := or_filter_pruned hle (lastPut service (adverts ops)) (store.byService.get? service)
      rw [← store.get?_pruned earlier service] at hpruned
      exact hpruned
    | listServices earlier =>
      have hle : earlier ≤ now := htimes _ List.mem_cons_self earlier rfl
      have hpruned := or_filter_pruned hle (lastPut service (adverts ops)) (store.byService.get? service)
      rw [← store.get?_pruned earlier service] at hpruned
      exact hpruned

theorem lookup_storeAfter (htimes : ∀ op ∈ ops, ∀ t, op.time = some t → t ≤ now) (service : Text) :
    ((storeAfter ops).lookup service now).1 =
      (lastPut service (adverts ops)).filter fun advert => !advert.isExpired now := by
  have hrun := lookup_foldl .empty service htimes
  have hempty : (AdvertisementStore.empty : AdvertisementStore τ).byService.get? service = none := rfl
  rw [hempty, Option.or_none] at hrun
  exact hrun

/-- One run finds the latest advertisements exactly when they arrive last. -/
theorem findsLatest_iff (htimes : ∀ op ∈ ops, ∀ t, op.time = some t → t ≤ now)
    (hdistinct : ((adverts ops).map ServiceAdvertisement.publishedAt).Nodup) :
    FindsLatest (adverts ops) now (storeAfter ops) ↔ LastIsLatest (adverts ops) now := by
  constructor
  · intro hfinds last latest hlast hlatest
    cases hexpired : latest.isExpired now with
    | false =>
      have hfound := (hfinds latest.service latest).mpr ⟨rfl, hlatest, hexpired⟩
      rw [lookup_storeAfter htimes, hlast] at hfound
      left
      simpa using (Option.filter_eq_some_iff.mp hfound).1
    | true =>
      cases hlastExpired : last.isExpired now with
      | false =>
        have hfound : ((storeAfter ops).lookup latest.service now).1 = some last := by
          rw [lookup_storeAfter htimes, hlast, Option.filter_some, if_pos (by simp [hlastExpired])]
        obtain ⟨hservice, hlastLatest, -⟩ := (hfinds latest.service last).mp hfound
        exact .inl (latest_unique hdistinct hlastLatest hlatest hservice)
      | true => exact .inr ⟨rfl, rfl⟩
  · intro horder service advert
    rw [lookup_storeAfter htimes]
    constructor
    · intro hfound
      obtain ⟨hlast, hunexpired⟩ := Option.filter_eq_some_iff.mp hfound
      obtain ⟨hmem, hservice⟩ := mem_of_lastPut hlast
      have hunexpired : advert.isExpired now = false := by simpa using hunexpired
      obtain ⟨latest, hlatest, hsame⟩ := exists_latest hmem
      have hlast' : lastPut latest.service (adverts ops) = some advert := by rw [hsame, hservice, hlast]
      rcases horder advert latest hlast' hlatest with rfl | ⟨hexpired, -⟩
      · exact ⟨hservice, hlatest, hunexpired⟩
      · rw [hexpired] at hunexpired
        cases hunexpired
    · rintro ⟨rfl, hlatest, hunexpired⟩
      obtain ⟨last, hlast⟩ := lastPut_of_mem hlatest.1
      rcases horder last advert hlast hlatest with rfl | ⟨-, hexpired⟩
      · rw [hlast, Option.filter_some, if_pos (by simp [hunexpired])]
      · rw [hexpired] at hunexpired
        cases hunexpired

theorem findsLatest_perm {store : AdvertisementStore τ} (hperm : puts.Perm puts') :
    FindsLatest puts now store ↔ FindsLatest puts' now store := by
  have hlatest (advert : ServiceAdvertisement τ) : IsLatest puts advert ↔ IsLatest puts' advert := by
    simp only [IsLatest, hperm.mem_iff]
  simp only [FindsLatest, hlatest]

theorem listServices_congr {store store' : AdvertisementStore τ} (hfinds : FindsLatest puts now store)
    (hfinds' : FindsLatest puts now store') : (store.listServices now).1 = (store'.listServices now).1 := by
  have hirrefl : Std.Irrefl fun a b : ServiceAdvertisement τ => orderOf a.service < orderOf b.service :=
    ⟨fun a => lt_irrefl _⟩
  have hantisymm : Std.Antisymm fun a b : ServiceAdvertisement τ => orderOf a.service < orderOf b.service :=
    ⟨fun a b hab hba => absurd hba hab.asymm⟩
  refine List.Pairwise.eq_of_mem_iff (store.sorted_listServices now) (store'.sorted_listServices now) ?_
  intro advert
  rw [AdvertisementStore.mem_listServices, AdvertisementStore.mem_listServices, hfinds, hfinds']

/-- Two orders of arrival converge exactly if in both of them the latest advertisement of each service arrives last, or
is of no more use than the one that does. -/
theorem converges_iff (now : τ) (ops ops' : List (StoreOp τ)) (hperm : (adverts ops).Perm (adverts ops'))
    (hdistinct : ((adverts ops).map ServiceAdvertisement.publishedAt).Nodup)
    (htimes : ∀ op ∈ ops, ∀ t, op.time = some t → t ≤ now) (htimes' : ∀ op ∈ ops', ∀ t, op.time = some t → t ≤ now) :
    Converges now ops ops' ↔ LastIsLatest (adverts ops) now ∧ LastIsLatest (adverts ops') now := by
  have hdistinct' : ((adverts ops').map ServiceAdvertisement.publishedAt).Nodup :=
    (hperm.map ServiceAdvertisement.publishedAt).nodup_iff.mp hdistinct
  rw [← findsLatest_iff htimes hdistinct, ← findsLatest_iff htimes' hdistinct', ← findsLatest_perm hperm]
  constructor
  · intro h
    exact ⟨h.finds, h.finds'⟩
  · rintro ⟨hfinds, hfinds'⟩
    refine ⟨hfinds, hfinds', listServices_congr hfinds hfinds', ?_, (storeAfter ops).sorted_listServices now⟩
    intro advert hadvert
    exact (AdvertisementStore.not_expired_of_lookup (AdvertisementStore.mem_listServices.mp hadvert)).2

end Order

def advertAt (service : String) (publishedAt : ℚ) : ServiceAdvertisement ℚ where
  service := Text.ofString service
  methods := []
  instanceId := []
  queue := []
  exchange := []
  publishedAt
  ttlS := 60

def renewed : List (StoreOp ℚ) := [.put (advertAt "a" 1), .put (advertAt "b" 2), .put (advertAt "a" 3)]

def renewed' : List (StoreOp ℚ) :=
  [.put (advertAt "b" 2), .put (advertAt "a" 1), .lookup (Text.ofString "a") 2, .put (advertAt "a" 3)]

theorem services_converge : Converges 4 renewed renewed' := by
  have hlatest {puts : List (ServiceAdvertisement ℚ)} (hperm : puts.Perm [advertAt "a" 1, advertAt "b" 2, advertAt "a" 3])
      (ha : lastPut (Text.ofString "a") puts = some (advertAt "a" 3))
      (hb : lastPut (Text.ofString "b") puts = some (advertAt "b" 2)) : LastIsLatest puts 4 := by
    intro last latest hlast hlatest
    left
    have hmem := hperm.mem_iff.mp hlatest.1
    simp only [List.mem_cons, List.not_mem_nil, or_false] at hmem
    rcases hmem with rfl | rfl | rfl
    · have hle := hlatest.2 (advertAt "a" 3) (hperm.mem_iff.mpr (by simp)) rfl
      exact absurd hle (by decide +kernel)
    · exact Option.some.inj (hlast.symm.trans hb)
    · exact Option.some.inj (hlast.symm.trans ha)
  have hperm : (adverts renewed).Perm (adverts renewed') := .swap _ _ _
  refine (converges_iff 4 _ _ hperm (by decide +kernel) ?_ ?_).mpr
    ⟨hlatest (.refl _) rfl rfl, hlatest (.swap _ _ _) rfl rfl⟩
  · intro op hop t ht
    simp only [renewed, List.mem_cons, List.not_mem_nil, or_false] at hop
    rcases hop with rfl | rfl | rfl <;> cases ht
  · intro op hop t ht
    simp only [renewed', List.mem_cons, List.not_mem_nil, or_false] at hop
    rcases hop with rfl | rfl | rfl | rfl
    · cases ht
    · cases ht
    · cases ht
      decide +kernel
    · cases ht

/-- The older advertisement arrives last, and is found. -/
theorem stale_not_converges :
    (adverts [.put (advertAt "a" 1), .put (advertAt "a" 2)]).Perm (adverts [.put (advertAt "a" 2), .put (advertAt "a" 1)]) ∧
      ¬Converges 3 [.put (advertAt "a" 1), .put (advertAt "a" 2)] [.put (advertAt "a" 2), .put (advertAt "a" 1)] := by
  refine ⟨.swap _ _ _, ?_⟩
  intro hconverges
  have hfound : ((storeAfter [.put (advertAt "a" 2), .put (advertAt "a" 1)]).lookup (Text.ofString "a") 3).1 =
      some (advertAt "a" 1) := by decide +kernel
  obtain ⟨-, hlatest, -⟩ := (hconverges.finds' _ _).mp hfound
  have hle := hlatest.2 (advertAt "a" 2) (by simp [adverts, StoreOp.advert]) rfl
  revert hle
  decide +kernel

end Nuropb.Patterns
