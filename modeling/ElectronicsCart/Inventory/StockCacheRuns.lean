import ElectronicsCart.Core.Alone
import ElectronicsCart.Core.Journal
import ElectronicsCart.Inventory.Ledger
import ElectronicsCart.Inventory.StockCache

/-!
# Cached stock under interleavings

A reader that misses loads the stock and stores it; a change writes the stock and then deletes the
keys.  A value that was loaded before the write and is stored after the deletion stays in the cache,
and so does one whose key has the same ids in another spelling.
-/

namespace ElectronicsCart.Inventory

open Interleaving Relational

abbrev StockEntry (names : Uuids) := Entry (StockDeskCall names) ShopInput (StockDesk names)

abbrev StockJournal (names : Uuids) := Journaled (StockDeskCall names) ShopInput (StockDesk names)

variable {names : Uuids}

/-- The value is what a read of the key could compute now. -/
def Fresh (key : StockKey names) (value : StockValue) (t : StockDesk names) : Prop :=
  match key with
  | .stock w v => value = stockView w v t
  | .availability v =>
    ∃ rank, value = withWarehouses v (findWarehouses t) (availabilityByVariant rank v.id t)

/-- The warehouses and variants whose rows a call may write. -/
def touched : ShopCall → List (ℕ × ℕ)
  | .stock (.reserveRows dto _) => [(dto.warehouseId, dto.variantId)]
  | .stock (.releaseRows reservation _) => [(reservation.warehouseId, reservation.variantId)]
  | .stock (.createRow dto) => [(dto.warehouseId, dto.variantId)]
  | .stock (.adjustRow _ dto) => [(dto.warehouseId, dto.variantId)]
  | .stock (.postGoodsReceipt dto) => dto.items.map fun i => (dto.warehouseId, i.variantId)
  | .stock (.postTransfer dto) => dto.items.flatMap fun i =>
      [(dto.fromWarehouseId, i.variantId), (dto.toWarehouseId, i.variantId)]
  | _ => []

def StockKey.over (pairs : List (ℕ × ℕ)) : StockKey names → Bool
  | .stock w v => decide ((w.id, v.id) ∈ pairs)
  | .availability v => pairs.any fun p => p.2 == v.id

def changes (key : StockKey names) (e : StockEntry names) : Bool :=
  match e.label with
  | .shop l => key.over (touched l)
  | _ => false

/-- The stock behind the key was written, and the key not deleted since. -/
def pending (key : StockKey names) : List (StockEntry names) → Bool
  | [] => false
  | e :: rest =>
    if e.label = .del key ∧ e.input.fails = false then false else changes key e || pending key rest

/-- The stock behind the key was written after the caller loaded it. -/
def overtaken (c : ℕ) (key : StockKey names) : List (StockEntry names) → Bool
  | [] => false
  | e :: rest =>
    if e.caller = c ∧ e.label = .load key then false else changes key e || overtaken c key rest

/-- The keys that `invalidateStock` deletes. -/
def keysOf (pairs : List (UuidText names.read × UuidText names.read)) : List (StockKey names) :=
  pairs.flatMap fun p => [.stock p.1 p.2, .availability p.2]

def StockKey.Printed : StockKey names → Prop
  | .stock w v => w = names.printed w.id ∧ v = names.printed v.id
  | .availability v => v = names.printed v.id

/-- The key has the ids as the change spells them; `release` takes them from a row. -/
def StockChange.Spells (change : StockChange names) (key : StockKey names) : Prop :=
  match change.request.named? with
  | some _ => key ∈ keysOf change.spelled
  | none => key.Printed

/-- A value whose stock was written since it was loaded is only stored while the deletion of the
key is still to come; and deletions reach the cache. -/
def StoredInTime (l : ℕ × StockDeskCall names) (i : ShopInput) (t : StockJournal names) : Prop :=
  match l.2 with
  | .set key => overtaken l.1 key t.journal = true → pending key t.journal = true
  | .del _ => i.fails = false
  | _ => True

instance (l : ℕ × StockDeskCall names) (i : ShopInput) (t : StockJournal names) :
    Decidable (StoredInTime l i t) := by
  unfold StoredInTime
  split <;> infer_instance

/-- A key with stock behind it that is written, or was since it was loaded, is spelled as the change
spells it. -/
def SpelledAlike (change : StockChange names) (l : ℕ × StockDeskCall names) (_ : ShopInput)
    (t : StockJournal names) : Prop :=
  match l.2 with
  | .set key => overtaken l.1 key t.journal = true → change.Spells key
  | .shop call => ∀ key, t.state.cache key ≠ none → key.over (touched call) = true → change.Spells key
  | _ => True

def Timely (change : StockChange names) (l : ℕ × StockDeskCall names) (i : ShopInput)
    (t : StockJournal names) : Prop :=
  StoredInTime l i t ∧ SpelledAlike change l i t

structure CacheKept (change : StockChange names) (t : StockJournal names) : Prop where
  placed : Placed t.state.shop
  entries : ∀ key value, t.state.cache key = some value →
    Fresh key value t.state ∨ (pending key t.journal = true ∧ change.Spells key)

def cacheWorld (change : StockChange names) :
    World (ℕ × StockDeskCall names) ShopInput (StockJournal names) :=
  ⟨Timely change, CacheKept change⟩

variable {t u : StockJournal names} {d : StockDesk names} {s s' : Shop} {key : StockKey names}
  {value : StockValue} {ps : List (ℕ × ℕ)} {c : ℕ} {change : StockChange names}

/-! ### Fresh values -/

theorem blind_listed (w v : ℕ) : Blind (listed w v) := fun _ _ _ => rfl

theorem blind_listedOf (v : ℕ) : Blind (listedOf v) := fun _ _ _ => rfl

theorem fresh_confined (hc : Confined ps d.shop s') (hw : s'.warehouses = d.shop.warehouses)
    (hkey : key.over ps = false) (h : Fresh key value d) : Fresh key value { d with shop := s' } := by
  cases key with
  | stock w v =>
    have hkey : (w.id, v.id) ∉ ps := of_decide_eq_false hkey
    have hrows := hc (listed w.id v.id) (blind_listed w.id v.id) fun r hr hmem => by
      obtain ⟨hwid, hvid, -⟩ := listed_iff.mp hr
      exact hkey (hwid ▸ hvid ▸ hmem)
    simp only [Fresh, stockView, stockSummary, hrows]
    exact h
  | availability v =>
    have hkey : ∀ p ∈ ps, p.2 ≠ v.id := by
      simpa [StockKey.over] using hkey
    have hrows := hc (listedOf v.id) (blind_listedOf v.id) fun r hr hmem => by
      simp only [listedOf, Bool.and_eq_true, beq_iff_eq] at hr
      exact hkey _ hmem hr.1.1
    have hnames : findWarehouses { d with shop := s' } = findWarehouses d := by
      funext id
      simp only [findWarehouses, hw]
    obtain ⟨rank, h⟩ := h
    refine ⟨rank, ?_⟩
    simp only [availabilityByVariant, hrows, hnames]
    exact h

theorem StockKey.over_nil (key : StockKey names) : key.over [] = false := by
  cases key <;> rfl

theorem StockKey.over_mono {qs : List (ℕ × ℕ)} (hsub : ∀ p ∈ qs, p ∈ ps) (h : key.over qs = true) :
    key.over ps = true := by
  cases key with
  | stock w v => exact decide_eq_true (hsub _ (of_decide_eq_true h))
  | availability v =>
    obtain ⟨p, hp, hv⟩ := List.any_eq_true.mp h
    exact List.any_eq_true.mpr ⟨p, hsub p hp, hv⟩

theorem StockKey.Printed.mem_keysOf (h : key.Printed) (hover : key.over ps = true) :
    key ∈ keysOf (ps.map fun p => (names.printed p.1, names.printed p.2)) := by
  simp only [keysOf, List.mem_flatMap, List.mem_map]
  cases key with
  | stock w v =>
    refine ⟨_, ⟨(w.id, v.id), of_decide_eq_true hover, rfl⟩, ?_⟩
    rw [← h.1, ← h.2]
    exact List.mem_cons_self
  | availability v =>
    obtain ⟨p, hp, hv⟩ := List.any_eq_true.mp hover
    refine ⟨_, ⟨p, hp, rfl⟩, ?_⟩
    have hv : names.printed p.2 = v := by
      rw [beq_iff_eq.mp hv]
      exact h.symm
    simp [hv]

/-- The deletions of a change reach the keys over its pairs that it spells. -/
theorem StockChange.mem_invalidated (hs : change.Spells key) (hover : key.over ps = true) :
    key ∈ keysOf (change.invalidated ps) := by
  unfold StockChange.Spells at hs
  unfold StockChange.invalidated
  cases hn : change.request.named? with
  | some _ =>
    rw [hn] at hs
    exact hs
  | none =>
    rw [hn] at hs
    exact hs.mem_keysOf hover

/-! ### Journals -/

theorem pending_append {new old : List (StockEntry names)} (hnew : ∀ e ∈ new, changes key e = false)
    (h : pending key old = false) : pending key (new ++ old) = false := by
  induction new with
  | nil => exact h
  | cons e new ih =>
    simp only [List.cons_append, pending]
    split
    · rfl
    · rw [hnew e List.mem_cons_self, Bool.false_or]
      exact ih fun e' he' => hnew e' (List.mem_cons_of_mem _ he')

theorem overtaken_append {new old : List (StockEntry names)} (hnew : ∀ e ∈ new, e.caller ≠ c) :
    overtaken c key (new ++ old) = (new.any (changes key) || overtaken c key old) := by
  induction new with
  | nil => rfl
  | cons e new ih =>
    have hne : ¬ (e.caller = c ∧ e.label = .load key) := fun h => hnew e List.mem_cons_self h.1
    simp only [List.cons_append, overtaken, if_neg hne, List.any_cons, Bool.or_assoc]
    rw [ih fun e' he' => hnew e' (List.mem_cons_of_mem _ he')]

/-- What any call does: values stay fresh unless the stock behind them is written. -/
structure Advances (t u : StockJournal names) : Prop where
  journal : ∃ new, u.journal = new ++ t.journal ∧ ∀ key value, Fresh key value t.state →
    Fresh key value u.state ∨ new.any (changes key) = true
  warehouses : findWarehouses u.state = findWarehouses t.state

/-- What the calls of a reader do: the shop is only read. -/
structure Idles (t u : StockJournal names) : Prop where
  shop : u.state.shop = t.state.shop
  journal : ∃ new, u.journal = new ++ t.journal ∧ ∀ e ∈ new, ∀ key, changes key e = false

theorem Advances.trans {a b d : StockJournal names} (h : Advances a b) (h' : Advances b d) : Advances a d := by
  obtain ⟨new, hnew, hfresh⟩ := h.journal
  obtain ⟨new', hnew', hfresh'⟩ := h'.journal
  refine ⟨⟨new' ++ new, ?_, fun key value hv => ?_⟩, h'.warehouses.trans h.warehouses⟩
  · rw [hnew', hnew, List.append_assoc]
  · rw [List.any_append]
    rcases hfresh key value hv with hf | hc
    · exact (hfresh' key value hf).imp_right fun hc => by rw [hc, Bool.true_or]
    · exact .inr (by rw [hc, Bool.or_true])

theorem Idles.trans {a b d : StockJournal names} (h : Idles a b) (h' : Idles b d) : Idles a d := by
  obtain ⟨new, hnew, hquiet⟩ := h.journal
  obtain ⟨new', hnew', hquiet'⟩ := h'.journal
  refine ⟨h'.shop.trans h.shop, new' ++ new, by rw [hnew', hnew, List.append_assoc], fun e he => ?_⟩
  exact (List.mem_append.mp he).elim (hquiet' e) (hquiet e)

/-- The first thread changes the stock, the others read it. -/
def reading (c : ℕ) : Discipline (ℕ × StockDeskCall names) ShopInput (StockJournal names) where
  rely t u := u.own c = t.own c ∧ Advances t u
  guar _ _ t u := (∀ c', c' ≠ c → u.own c' = t.own c') ∧ Advances t u ∧ Idles t u
  refl _ := ⟨rfl, ⟨[], rfl, fun _ _ h => .inl h⟩, rfl⟩
  trans h h' := ⟨h'.1.trans h.1, h.2.trans h'.2⟩

def mutating : Discipline (ℕ × StockDeskCall names) ShopInput (StockJournal names) where
  rely t u := Idles t u
  guar _ _ t u := (∀ c', c' ≠ 0 → u.own c' = t.own c') ∧ Advances t u
  refl _ := ⟨rfl, [], rfl, fun _ h => (nomatch h)⟩
  trans := .trans

/-! ### Readers -/

abbrev ReaderHolds {α : Type} (change : StockChange names) (c : ℕ)
    (Q : Except Failure α → StockJournal names → Prop) (p : StockDeskProg names α)
    (t : StockJournal names) : Prop :=
  Holds (cacheWorld change) .silent (reading c) Q (p.journaled c) t

/-- The value the caller has loaded is fresh, or the stock was written since. -/
def Loaded (c : ℕ) (key : StockKey names) (value : StockValue) (t : StockJournal names) : Prop :=
  Fresh key value t.state ∨ overtaken c key t.journal = true

theorem own_append {new : List (StockEntry names)} (hown : u.own c = t.own c)
    (hnew : u.journal = new ++ t.journal) : ∀ e ∈ new, e.caller ≠ c := by
  intro e he hc
  rw [Journaled.own, Journaled.own, hnew, List.filter_append, List.append_left_eq_self] at hown
  have hmem : e ∈ new.filter fun e => e.caller == c := List.mem_filter.mpr ⟨he, by simp [hc]⟩
  rw [hown] at hmem
  cases hmem

theorem Loaded.stable (h : Loaded c key value t) (hr : (reading c).rely t u) : Loaded c key value u := by
  obtain ⟨new, hnew, hfresh⟩ := hr.2.journal
  have hover := @overtaken_append _ key _ _ t.journal (own_append hr.1 hnew)
  rw [Loaded, hnew, hover]
  rcases h with hf | ho
  · exact (hfresh key value hf).imp_right fun hc => by rw [hc, Bool.true_or]
  · exact .inr (by rw [ho, Bool.or_true])

theorem guar_record {l : StockDeskCall names} {i : ShopInput} {m : StockKey names → Option StockValue}
    (hl : ∀ key, changes key ⟨c, l, i, t.state⟩ = false) :
    (reading c).guar (c, l) i t (t.record c l i { t.state with cache := m }) := by
  refine ⟨fun c' hne => Journaled.own_record_of_ne hne, ⟨⟨[_], rfl, fun _ _ h => .inl h⟩, rfl⟩, rfl,
    [_], rfl, fun e he key => ?_⟩
  rw [List.mem_singleton.mp he]
  exact hl key

/-- A call that leaves the cache as it is. -/
theorem CacheKept.read (h : CacheKept change t) {l : StockDeskCall names} {i : ShopInput}
    (hl : ∀ key, changes key ⟨c, l, i, t.state⟩ = false ∧ l ≠ .del key) :
    CacheKept change (t.record c l i t.state) := by
  refine ⟨h.placed, fun key value hv => ?_⟩
  have hpending : pending key (t.record c l i t.state).journal = pending key t.journal := by
    rw [Journaled.journal_record, pending, if_neg (fun hd => (hl key).2 hd.1), (hl key).1,
      Bool.false_or]
  rw [hpending]
  exact h.entries key value hv

theorem set_holds (hv : Loaded c key value t) :
    ReaderHolds change c (fun _ _ => True) ((cacheSet key value).bind fun _ => .done (.ok value)) t := by
  rw [ReaderHolds, Prog.journaled_bind, cacheSet, Prog.journaled_call]
  refine Holds.callBind fun u hu hi i ho => ?_
  have hv := hv.stable hu
  have hother : ∀ k, changes k ⟨c, .set key, i, u.state⟩ = false ∧ StockDeskCall.set key ≠ .del k :=
    fun _ => ⟨rfl, by simp⟩
  cases hf : i.fails with
  | true => exact ⟨hi.read hother, guar_record fun k => (hother k).1, fun _ _ _ => trivial⟩
  | false =>
    refine ⟨⟨hi.placed, fun k v hk => ?_⟩, guar_record fun k => (hother k).1, fun _ _ _ => trivial⟩
    have hpending : ∀ k, pending k (u.record c (.set key) i u.state).journal = pending k u.journal :=
      fun k => by
        rw [Journaled.journal_record, pending, if_neg (fun hd => (hother k).2 hd.1), (hother k).1,
          Bool.false_or]
    change Fresh k v u.state ∨ (pending k (u.record c (.set key) i u.state).journal = true ∧ _)
    rw [hpending]
    by_cases hkey : k = key
    · subst hkey
      have hval : some value = some v := by
        simpa [Function.update_self] using hk
      obtain rfl := Option.some.inj hval
      exact hv.imp_right fun h => ⟨ho.1 h, ho.2 h⟩
    · exact hi.entries k v (by simpa [Function.update_of_ne hkey] using hk)

theorem getOrSet_holds {factory : StockDeskProg names StockValue}
    (hfac : ∀ u, CacheKept change u →
      ReaderHolds change c (fun r u => ∀ v, r = .ok v → Loaded c key v u) factory u) :
    ReaderHolds change c (fun _ _ => True) (getOrSet key factory) t := by
  rw [ReaderHolds, getOrSet, Prog.bind_eq, Prog.journaled_bind, cacheGet, Prog.journaled_call]
  refine Holds.callBind fun u hu hi i ho => ?_
  have hget : ∀ k, changes k ⟨c, .get key, i, u.state⟩ = false ∧ StockDeskCall.get key ≠ .del k :=
    fun _ => ⟨rfl, by simp⟩
  have hkept := hi.read hget
  refine ⟨hkept, guar_record fun k => (hget k).1, ?_⟩
  dsimp only
  split
  · exact fun _ _ _ => trivial
  · rw [Prog.bind_eq, Prog.journaled_bind]
    refine Holds.bind (Holds.mono ?_ (hfac _ hkept)) hkept
    rintro (e | v) w - hv
    · trivial
    · exact set_holds (hv v rfl)

theorem onShop_query {α : Type} (l : ShopCall) (f : ShopInput → Shop → α) :
    (onShop (query l f) : StockDeskProg names α) = query (.shop l) fun i t => f i t.shop := rfl

theorem onShop_bind {α β : Type} (p : ShopProg α) (f : α → ShopProg β) :
    (onShop (p.bind f) : StockDeskProg names β) = (onShop p).bind fun a => onShop (f a) :=
  Prog.zoom_bind p f

theorem getStock_holds (w v : UuidText names.read) :
    ReaderHolds change c (fun _ _ => True) (getStock w v) t := by
  rw [getStock, Prog.bind_eq, requireWarehouse, Prog.bind_eq, onShop_bind, onShop_query,
    Prog.bind_assoc]
  refine holds_journaledQuery fun u hu hi i _ => ?_
  have hread : ∀ k, changes k ⟨c, .shop (.stock (.findWarehouse w.id)), i, u.state⟩ = false ∧
      StockDeskCall.shop (.stock (.findWarehouse w.id)) ≠ .del k := fun k => ⟨k.over_nil, by simp⟩
  refine ⟨hi.read hread, guar_record fun k => (hread k).1, fun _ _ _ _ => trivial, fun _ => ?_⟩
  cases (u.state.shop.warehouses.find? w.id).filter fun w => !w.deleted with
  | none => exact fun _ _ _ => trivial
  | some _ =>
    refine getOrSet_holds fun x _ => holds_journaledRead fun y hy hi i _ => ?_
    have hload : ∀ k, changes k ⟨c, .load (.stock w v), i, y.state⟩ = false ∧
        StockDeskCall.load (.stock w v) ≠ .del k := fun _ => ⟨rfl, by simp⟩
    refine ⟨hi.read hload, guar_record fun k => (hload k).1, by rintro _ _ _ _ ⟨⟩, ?_⟩
    rintro z hz - value ⟨⟩
    have hloaded : Loaded c (.stock w v) (stockView w v y.state)
        (y.record c (.load (.stock w v)) i y.state) := .inl rfl
    exact hloaded.stable hz

theorem warehouseAvailability_holds (v : UuidText names.read) :
    ReaderHolds change c (fun _ _ => True) (warehouseAvailability v) t := by
  refine getOrSet_holds fun _ _ => holds_journaledQuery fun u _ hi i _ => ?_
  have hload : ∀ k, changes k ⟨c, .load (.availability v), i, u.state⟩ = false ∧
      StockDeskCall.load (.availability v) ≠ .del k := fun _ => ⟨rfl, by simp⟩
  refine ⟨hi.read hload, guar_record fun k => (hload k).1, fun _ _ _ _ _ hv => (nomatch hv), fun _ => ?_⟩
  refine holds_journaledQuery fun x hx hi' i' _ => ?_
  have hnames : ∀ k, changes k ⟨c, .findWarehouses, i', x.state⟩ = false ∧
      StockDeskCall.findWarehouses ≠ .del k := fun _ => ⟨rfl, by simp⟩
  refine ⟨hi'.read hnames, guar_record fun k => (hnames k).1, fun _ _ _ _ _ hv => (nomatch hv), ?_⟩
  rintro - y hy - value ⟨⟩
  -- the warehouses are the ones that the groups were read with
  have hfirst : Loaded c (.availability v)
      (withWarehouses v (findWarehouses x.state) (availabilityByVariant i.rank v.id u.state)) x := by
    rw [hx.2.warehouses]
    have hloaded : Loaded c (.availability v)
        (withWarehouses v (findWarehouses u.state) (availabilityByVariant i.rank v.id u.state))
        (u.record c (.load (.availability v)) i u.state) := .inl ⟨i.rank, rfl⟩
    exact hloaded.stable hx
  have hsecond : Loaded c (.availability v)
      (withWarehouses v (findWarehouses x.state) (availabilityByVariant i.rank v.id u.state))
      (x.record c .findWarehouses i' x.state) := by
    refine hfirst.imp id fun ho => ?_
    rw [Journaled.journal_record, overtaken, if_neg (fun h => nomatch h.2), ho, Bool.or_true]
  exact hsecond.stable hy

theorem read_holds (r : StockRead names) (hi : CacheKept change t) :
    ReaderHolds change c (fun _ _ => True) r.prog t := by
  have hdrop : ∀ p : StockDeskProg names StockValue, ReaderHolds change c (fun _ _ => True) p t →
      ReaderHolds change c (fun _ _ => True) (p.bind fun _ => .done (.ok ())) t := by
    intro p hp
    rw [ReaderHolds, Prog.journaled_bind]
    refine Holds.bind (Holds.mono ?_ hp) hi
    rintro (e | a) u - -
    · trivial
    · exact fun _ _ _ => trivial
  cases r with
  | stock w v => exact hdrop _ (getStock_holds w v)
  | availability v => exact hdrop _ (warehouseAvailability_holds v)

/-! ### The shop under a change -/

structure Confines (ps : List (ℕ × ℕ)) (l : ShopCall) (s s' : Shop) : Prop where
  placed : Placed s'
  sub : ∀ x ∈ touched l, x ∈ ps
  confined : Confined (touched l) s s'
  warehouses : s'.warehouses = s.warehouses

def confining (ps : List (ℕ × ℕ)) : Discipline ShopCall ShopInput Shop :=
  .alone fun l _ s s' => Confines ps l s s'

def siteWorld : World ShopCall ShopInput Shop := ⟨fun _ _ _ => True, Placed⟩

abbrev ConfinesHolds {α : Type} (ps : List (ℕ × ℕ)) (R : α → Shop → Prop) (p : ShopProg α)
    (s : Shop) : Prop :=
  Holds siteWorld .silent (confining ps) (Returns R) p s

section Change

variable {α β : Type} {R : α → Shop → Prop} {l : ShopCall}

theorem confines_queryBind {f : ShopInput → Shop → β} {k : β → ShopProg α} (hl : touched l = [])
    (hk : ∀ i, ConfinesHolds ps R (k (f i s)) s) : ConfinesHolds ps R ((query l f).bind k) s := by
  refine holds_queryBind ?_
  rintro t rfl hi i -
  exact ⟨⟨hi, by simp [hl], .of_eq rfl, rfl⟩, fun _ _ _ => trivial, fun _ => hk i⟩

theorem confines_atomicBind {f : ShopInput → Shop → Except Failure (β × Shop)} {k : β → ShopProg α}
    (hsub : ∀ x ∈ touched l, x ∈ ps)
    (h : Placed s → ∀ i b u, f i s = .ok (b, u) → Confines ps l s u ∧ ConfinesHolds ps R (k b) u) :
    ConfinesHolds ps R ((atomic l f).bind k) s := by
  refine holds_atomicBind ?_
  rintro t rfl hi i -
  refine ⟨⟨hi, hsub, .of_eq rfl, rfl⟩, fun _ _ _ _ _ => trivial, fun b u _ hu => ?_⟩
  obtain ⟨hc, hk⟩ := h hi i b u hu
  exact ⟨hc.placed, hc, hk⟩

/-- A write beside the rows. -/
theorem confines_writeBind {f : ShopInput → Shop → Except Failure (β × Shop)} {k : β → ShopProg α}
    (hl : touched l = [])
    (hf : ∀ i b u, f i s = .ok (b, u) →
      u.inventory = s.inventory ∧ u.bins = s.bins ∧ u.warehouses = s.warehouses)
    (hk : ∀ b u, ConfinesHolds ps R (k b) u) : ConfinesHolds ps R ((atomic l f).bind k) s := by
  refine confines_atomicBind (by simp [hl]) fun hs i b u hu => ⟨?_, hk b u⟩
  obtain ⟨hi, hb, hw⟩ := hf i b u hu
  exact ⟨placed_of_eq hi hb hs, by simp [hl], .of_eq hi, hw⟩

theorem confines_requireWarehouse {id : ℕ} {k : Warehouse → ShopProg α}
    (hk : ∀ b, ConfinesHolds ps R (k b) s) : ConfinesHolds ps R ((requireWarehouse id).bind k) s := by
  rw [requireWarehouse, Prog.bind_eq, Prog.bind_assoc]
  exact confines_queryBind rfl fun _ => Holds.orThrowBind (fun b _ => hk b) fun _ _ _ _ => trivial

theorem confines_createMovement {w v : ℕ} {type : MovementType} {n : ℤ} {ref : String} {id : ℕ}
    {notes : Option String} {k : Unit → ShopProg α} (hk : ∀ b u, ConfinesHolds ps R (k b) u) :
    ConfinesHolds ps R ((createMovement w v type n ref id notes).bind k) s := by
  refine confines_writeBind rfl (fun i b u hu => ?_) hk
  simp only [bind_eq_ok, pure_eq_ok, Prod.mk.injEq] at hu
  obtain ⟨s₁, h₁, -, rfl⟩ := hu
  have hsite := insertMovement_site h₁
  exact ⟨by rw [insertMovement_eq h₁], hsite.bins, hsite.warehouses⟩

theorem confines_ensureBind {q : Prop} [Decidable q] {e : Failure} {k : Unit → ShopProg α}
    (hk : q → ConfinesHolds ps R (k ()) s) : ConfinesHolds ps R ((Prog.ensure q e).bind k) s :=
  Holds.ensureBind hk fun _ _ _ _ => trivial

end Change

abbrev Names (ps : List (ℕ × ℕ)) : List (ℕ × ℕ) → Shop → Prop := fun qs _ => qs = ps

theorem reserve_confines (dto : ReserveStockDto) : ConfinesHolds [(dto.warehouseId, dto.variantId)]
    (Names [(dto.warehouseId, dto.variantId)]) (StockRequest.reserve dto).change s := by
  refine confines_requireWarehouse fun _ => confines_queryBind rfl fun i => ?_
  refine confines_ensureBind fun _ => ?_
  refine confines_atomicBind (fun _ h => h) fun hs i' b u hu => ⟨?_, ?_⟩
  · simp only [reserveRows, bind_eq_ok, pure_eq_ok, Prod.mk.injEq] at hu
    obtain ⟨⟨m, T⟩, hT, -, rfl⟩ := hu
    exact ⟨moveUnits_placed hs hT, fun _ h => h, confined_moveUnits (current_findRows i.rank) hT, rfl⟩
  refine confines_writeBind rfl (fun i'' r u' hu' => ?_) fun _ _ => confines_createMovement fun _ _ => ?_
  · simp only [createReservation, bind_eq_ok, check_eq_ok, pure_eq_ok, Prod.mk.injEq] at hu'
    obtain ⟨-, -, -, -, -, -, -, -, -, -, -, rfl⟩ := hu'
    exact ⟨rfl, rfl, rfl⟩
  · exact fun _ _ _ => rfl

theorem release_confines (id : ℕ) (s : Shop) :
    ∃ ps, ConfinesHolds ps (Names ps) (StockRequest.release id).change s := by
  cases hr : (s.reservations.find? id).filter fun r => !r.deleted with
  | none =>
    refine ⟨[], confines_queryBind rfl fun i => Holds.orThrowBind (fun r h => ?_) fun _ _ _ _ => trivial⟩
    rw [hr] at h
    cases h
  | some r =>
    refine ⟨[(r.warehouseId, r.variantId)], confines_queryBind rfl fun i =>
      Holds.orThrowBind (fun r' h => ?_) fun _ _ _ _ => trivial⟩
    obtain rfl : r = r' := Option.some.inj (hr.symm.trans h)
    refine confines_ensureBind fun _ => confines_queryBind rfl fun i => ?_
    refine confines_atomicBind (fun _ h => h) fun hs i' b u hu =>
      ⟨?_, confines_createMovement fun _ _ _ _ _ => rfl⟩
    simp only [releaseRows, bind_eq_ok, pure_eq_ok, Prod.mk.injEq] at hu
    obtain ⟨⟨m, T⟩, hT, -, -, -, rfl⟩ := hu
    exact ⟨moveUnits_placed hs hT, fun _ h => h, confined_moveUnits (current_findRows i.rank) hT, rfl⟩

theorem Received.confines {w v : ℕ} {n : ℤ} {l : ShopCall} (h : Received w v n s s')
    (hl : touched l = [(w, v)]) : Confines [(w, v)] l s s' := by
  refine ⟨h.placed, by simp [hl], hl ▸ h.others, ?_⟩
  rw [h.frame]

theorem adjust_confines (dto : AdjustStockDto) : ConfinesHolds [(dto.warehouseId, dto.variantId)]
    (Names [(dto.warehouseId, dto.variantId)]) (StockRequest.adjust dto).change s := by
  refine confines_requireWarehouse fun _ => confines_queryBind rfl fun i => ?_
  refine confines_ensureBind fun hbin => confines_queryBind rfl fun i' => ?_
  refine confines_ensureBind fun _ => ?_
  have hplace := bin_of_any hbin
  have hrest : ∀ u, ConfinesHolds [(dto.warehouseId, dto.variantId)]
      (Names [(dto.warehouseId, dto.variantId)])
      ((atomic (.stock (.createAdjustment dto)) fun _ s => createAdjustment dto s).bind
        fun adjustment => (createMovement dto.warehouseId dto.variantId .adjustment dto.quantityDelta
          "inventory_adjustment" adjustment.id dto.notes).bind
        fun _ => .done (.ok [(dto.warehouseId, dto.variantId)])) u := by
    intro u
    refine confines_writeBind rfl (fun i a u' hu' => ?_) fun _ _ =>
      confines_createMovement fun _ _ _ _ _ => rfl
    simp only [createAdjustment, bind_eq_ok, check_eq_ok, pure_eq_ok, Prod.mk.injEq] at hu'
    obtain ⟨-, -, -, -, -, -, -, rfl⟩ := hu'
    exact ⟨rfl, rfl, rfl⟩
  cases hrow : findRow dto.binId dto.variantId s.inventory with
  | none =>
    simp only [changeRow, Prog.bind_eq, Prog.bind_assoc]
    refine confines_ensureBind fun _ => ?_
    refine confines_atomicBind (fun _ h => h) fun hs i'' r u hu => ⟨?_, hrest u⟩
    exact (received_createRow hs hplace hu).confines rfl
  | some r =>
    refine confines_atomicBind (fun _ h => h) fun hs i'' b u hu => ⟨?_, hrest u⟩
    have hfind : s.inventory.find? r.id = some r :=
      Table.find?_eq_some_iff.mpr ⟨(findRow_some hrow).1, rfl⟩
    exact (adjustRow_spec hs hfind (holds_findRow hs hplace hrow) hu).confines rfl

theorem goodsReceipt_confines (dto : CreateGoodsReceiptDto) :
    ConfinesHolds (dto.items.map fun i => (dto.warehouseId, i.variantId))
      (Names (dto.items.map fun i => (dto.warehouseId, i.variantId)))
      (StockRequest.goodsReceipt dto).change s := by
  refine confines_queryBind rfl fun i => confines_ensureBind fun _ => confines_ensureBind fun _ => ?_
  refine confines_requireWarehouse fun _ => ?_
  refine confines_atomicBind (fun _ h => h) fun hs i' b u hu => ⟨?_, fun _ _ _ => rfl⟩
  have harr := postGoodsReceipt_arrived hs hu
  exact ⟨harr.placed, fun _ h => h, harr.others, harr.site.warehouses⟩

theorem transfer_confines (dto : CreateTransferDto) :
    ConfinesHolds (dto.items.flatMap fun i =>
        [(dto.fromWarehouseId, i.variantId), (dto.toWarehouseId, i.variantId)])
      (Names (dto.items.flatMap fun i =>
        [(dto.fromWarehouseId, i.variantId), (dto.toWarehouseId, i.variantId)]))
      (StockRequest.transfer dto).change s := by
  refine confines_ensureBind fun _ => confines_queryBind rfl fun i => confines_ensureBind fun _ => ?_
  refine confines_requireWarehouse fun _ => confines_requireWarehouse fun _ => ?_
  refine confines_atomicBind (fun _ h => h) fun hs i' b u hu => ⟨?_, fun _ _ _ => rfl⟩
  obtain ⟨-, hc⟩ := postTransfer_carried hs hu
  exact ⟨hc.placed, fun _ h => h, hc.others, hc.site.warehouses⟩

/-- The pairs that a change invalidates include all those it writes. -/
theorem change_confines (r : StockRequest) (s : Shop) : ∃ ps, ConfinesHolds ps (Names ps) r.change s := by
  cases r with
  | reserve dto => exact ⟨_, reserve_confines dto⟩
  | release id => exact release_confines id s
  | adjust dto => exact ⟨_, adjust_confines dto⟩
  | goodsReceipt dto => exact ⟨_, goodsReceipt_confines dto⟩
  | transfer dto => exact ⟨_, transfer_confines dto⟩

theorem maybeLowStock_confines (w v : ℕ) : ConfinesHolds [] (fun _ _ => True) (maybeLowStock w v) s := by
  refine confines_queryBind rfl fun i => ?_
  dsimp only
  split
  · exact fun _ _ _ => trivial
  refine confines_queryBind rfl fun i' => ?_
  split
  · exact fun _ _ _ => trivial
  refine holds_atomic ?_
  rintro t rfl hi i -
  refine ⟨⟨hi, by simp [touched], .of_eq rfl, rfl⟩, fun _ _ _ _ _ => trivial, fun b u _ hu => ?_⟩
  simp only [createAlert, bind_eq_ok, pure_eq_ok, Prod.mk.injEq] at hu
  obtain ⟨-, -, -, rfl⟩ := hu
  exact ⟨placed_of_eq rfl rfl hi, ⟨placed_of_eq rfl rfl hi, by simp [touched], .of_eq rfl, rfl⟩,
    fun _ _ _ => trivial⟩

theorem after_confines (r : StockRequest) : ConfinesHolds [] (fun _ _ => True) r.after s := by
  cases r with
  | reserve dto => exact maybeLowStock_confines _ _
  | adjust dto => exact maybeLowStock_confines _ _
  | release id => exact fun _ _ _ => trivial
  | goodsReceipt dto => exact fun _ _ _ => trivial
  | transfer dto => exact fun _ _ _ => trivial

/-! ### The change with its cache calls -/

def deskConfining (ps : List (ℕ × ℕ)) : Discipline (StockDeskCall names) ShopInput (StockDesk names) where
  rely d d' := d'.shop = d.shop
  guar l _ d d' := ∃ l' s', l = .shop l' ∧ d' = { d with shop := s' } ∧ Confines ps l' d.shop s'
  refl _ := rfl
  trans h h' := h'.trans h

def deskWorld : World (StockDeskCall names) ShopInput (StockDesk names) :=
  ⟨fun _ _ _ => True, fun d => Placed d.shop⟩

theorem ConfinesHolds.onShop {α : Type} {R : α → Shop → Prop} {p : ShopProg α}
    (h : ConfinesHolds ps R p d.shop) :
    Holds deskWorld .silent (deskConfining ps) (fun r d => Returns R r d.shop) (onShop p) d := by
  refine Holds.zoom_silent (fun _ _ => rfl) (fun _ _ _ _ => trivial) (fun _ hi => hi) ?_ ?_ h
  · exact fun d d' h => h.symm
  · exact fun l i d s' _ _ hi hg => ⟨hi, l, s', rfl, rfl, hg⟩

def Left (ks : StockKey names → Prop) (t : StockJournal names) : Prop :=
  ∀ key, pending key t.journal = true → ks key

theorem Left.stable {ks : StockKey names → Prop} (h : Left ks t) (hr : mutating.rely t u) : Left ks u := by
  obtain ⟨new, hnew, hquiet⟩ := hr.journal
  intro key hpending
  by_contra hkey
  have hold : pending key t.journal = false := by
    simpa using mt (h key) hkey
  rw [hnew, pending_append (fun e he => hquiet e he key) hold] at hpending
  cases hpending

/-- A call of the change writes the shop. -/
theorem confines_record {l : ShopCall} {i : ShopInput} (ht : CacheKept change t)
    (hl : SpelledAlike change (0, .shop l) i t) (hc : Confines ps l t.state.shop s') :
    let u := t.record 0 (.shop l) i { t.state with shop := s' }
    CacheKept change u ∧ mutating.guar (0, .shop l) i t u := by
  have hfresh : ∀ key value, Fresh key value t.state →
      Fresh key value { t.state with shop := s' } ∨ key.over (touched l) = true := by
    intro key value hv
    cases hkey : key.over (touched l) with
    | true => exact .inr rfl
    | false => exact .inl (fresh_confined hc.confined hc.warehouses hkey hv)
  refine ⟨⟨hc.placed, fun key value hv => ?_⟩, fun c hne => Journaled.own_record_of_ne hne, ⟨[_], rfl,
    fun key value hv => ?_⟩, ?_⟩
  · have hcached : t.state.cache key = some value := hv
    rw [Journaled.journal_record, pending, if_neg (fun h => nomatch h.1), Bool.or_eq_true]
    rcases ht.entries key value hcached with hf | ⟨hp, hs⟩
    · refine (hfresh key value hf).imp_right fun hkey => ⟨.inl hkey, hl key ?_ hkey⟩
      simp [hcached]
    · exact .inr ⟨.inr hp, hs⟩
  · refine (hfresh key value hv).imp_right fun hkey => ?_
    simpa [changes] using hkey
  · funext id
    simp only [Journaled.state_record, findWarehouses, hc.warehouses]

abbrev ChangeHolds {α : Type} (change : StockChange names)
    (Q : Except Failure α → StockJournal names → Prop) (p : StockDeskProg names α)
    (t : StockJournal names) : Prop :=
  Holds (cacheWorld change) .silent mutating Q (p.journaled 0) t

theorem onShop_holds {α : Type} {R : α → Shop → Prop} {p : ShopProg α} {ks : StockKey names → Prop}
    (h : ConfinesHolds ps R p t.state.shop) (hks : ∀ key, key.over ps = true → ks key)
    (ht : Left ks t) :
    ChangeHolds change (fun r u => Returns R r u.state.shop ∧ Left ks u) (onShop p) t := by
  refine Holds.journaled (W := deskWorld) (V := cacheWorld change) (E := mutating) (P := Left ks)
    (fun _ _ _ _ => trivial) (fun _ hi => hi.placed) (fun _ _ hr => hr.shop)
    (fun _ _ hr h => h.stable hr) ?_ h.onShop ht
  rintro l i t u hi hok - hl ⟨l', s', rfl, rfl, hc⟩
  obtain ⟨hkept, hg⟩ := confines_record (i := i) hi hok.2 hc
  refine ⟨hkept, hg, fun key hp => ?_⟩
  rw [Journaled.journal_record, pending, if_neg (fun h => nomatch h.1), Bool.or_eq_true] at hp
  rcases hp with hkey | hp
  · exact hks key (StockKey.over_mono hc.sub hkey)
  · exact hl key hp

/-- These keys wait for their deletion, or are not spelled as the change spells them. -/
def Waits (change : StockChange names) (ks : List (StockKey names)) (key : StockKey names) : Prop :=
  change.Spells key → key ∈ ks

theorem del_holds {ks : List (StockKey names)} (ht : Left (Waits change (key :: ks)) t) :
    ChangeHolds change (Returns fun _ u => Left (Waits change ks) u) (cacheDel key) t := by
  rw [ChangeHolds, cacheDel, Prog.journaled_call]
  refine Holds.call fun u hu hi i ho => ?_
  have hf : i.fails = false := ho.1
  have ht := ht.stable hu
  simp only [hf, Bool.false_eq_true, if_false]
  let v := u.record 0 (.del key) i { u.state with cache := Function.update u.state.cache key none }
  have hself : pending key v.journal = false := by
    rw [Journaled.journal_record, pending, if_pos ⟨rfl, hf⟩]
  have hother : ∀ k, k ≠ key → pending k v.journal = pending k u.journal := fun k hk => by
    rw [Journaled.journal_record, pending,
      if_neg (fun h => hk (StockDeskCall.del.inj h.1).symm)]
    rfl
  have hleft : Left (Waits change ks) v := fun k hp hs => by
    by_cases hk : k = key
    · rw [hk, hself] at hp
      cases hp
    · rw [hother k hk] at hp
      exact (List.mem_cons.mp (ht k hp hs)).resolve_left hk
  refine ⟨⟨hi.placed, fun k value hv => ?_⟩, ⟨fun c hne => Journaled.own_record_of_ne hne,
    ⟨[_], rfl, fun _ _ h => .inl h⟩, rfl⟩, fun w hw _ => hleft.stable hw⟩
  by_cases hk : k = key
  · have hnone : Function.update u.state.cache key none k = some value := hv
    rw [hk, Function.update_self] at hnone
    cases hnone
  · have hsome : u.state.cache k = some value := by
      simpa [Function.update_of_ne hk] using hv
    change Fresh k value u.state ∨ (pending k v.journal = true ∧ change.Spells k)
    rw [hother k hk]
    exact hi.entries k value hsome

theorem invalidateAll_holds (pairs : List (UuidText names.read × UuidText names.read))
    (hi : CacheKept change t) (ht : Left (Waits change (keysOf pairs)) t) :
    ChangeHolds change (Returns fun _ u => Left (Waits change []) u) (invalidateAll pairs) t := by
  induction pairs generalizing t with
  | nil => exact fun u hu _ => ht.stable hu
  | cons p ps ih =>
    have hfirst : Left (Waits change (.stock p.1 p.2 :: .availability p.2 :: keysOf ps)) t := ht
    rw [ChangeHolds, invalidateAll, invalidateStock, Prog.bind_eq, Prog.bind_eq, Prog.bind_assoc,
      Prog.journaled_bind]
    refine Holds.bind (Holds.mono ?_ (del_holds hfirst)) hi
    rintro (e | a) u hu hstock
    · trivial
    change ChangeHolds change _ ((cacheDel (.availability p.2)).bind fun _ => invalidateAll ps) u
    rw [ChangeHolds, Prog.journaled_bind]
    refine Holds.bind (Holds.mono ?_ (del_holds hstock)) hu
    rintro (e | a) v hv hboth
    · trivial
    exact ih hv hboth

theorem mutate_holds (hi : CacheKept change t) (hnew : t.journal = []) :
    ChangeHolds change (Returns fun _ u => Left (Waits change []) u) change.mutate t := by
  obtain ⟨ps, hps⟩ := change_confines change.request t.state.shop
  have hnone : Left (fun key => key.over ps = true) t := fun key hp => by
    rw [hnew] at hp
    cases hp
  rw [ChangeHolds, StockChange.mutate, Prog.bind_eq, Prog.journaled_bind]
  refine Holds.bind (Holds.mono ?_ (onShop_holds hps (fun _ h => h) hnone)) hi
  rintro (e | pairs) u hu ⟨hpairs, hleft⟩
  · trivial
  obtain rfl : pairs = ps := hpairs
  have hwaits : Left (Waits change (keysOf (change.invalidated pairs))) u := fun key hp hs =>
    StockChange.mem_invalidated hs (hleft key hp)
  change ChangeHolds change _
    ((invalidateAll (change.invalidated pairs)).bind fun _ => onShop change.request.after) u
  rw [ChangeHolds, Prog.journaled_bind]
  refine Holds.bind (Holds.mono ?_ (invalidateAll_holds _ hu hwaits)) hu
  rintro (e | a) v hv hempty
  · trivial
  have hover : ∀ key : StockKey names, key.over [] = true → Waits change [] key := fun key h => by
    rw [key.over_nil] at h
    cases h
  refine Holds.mono ?_ (onShop_holds (after_confines change.request) hover hempty)
  rintro (e | a) w - ⟨-, hdone⟩
  · trivial
  · exact hdone

/-! ### Runs -/

def cachePool (change : StockChange names) (reads : List (StockRead names)) (d : StockDesk names) :
    Pool (StockDeskCall names) ShopInput (StockDesk names) Failure Unit :=
  ⟨change.mutate :: reads.map StockRead.prog, d⟩

/-- Each store of a value whose stock was written since it was loaded comes before the deletion of
its key, and the keys are spelled as the change spells them: then what is cached once the change is
through is what the database holds. -/
theorem cached_stock_fresh (names : Uuids) (change : StockChange names) (reads : List (StockRead names))
    (d : StockDesk names) (sched : List (ℕ × ShopInput)) (hplaced : Placed d.shop)
    (hfresh : ∀ key value, d.cache key = some value → Fresh key value d)
    (hsched : (cachePool change reads d).journaled.Admits (Timely change) sched)
    (hended : ((cachePool change reads d).run sched).threads[0]? = some (.done (.ok ())))
    (key : StockKey names) (value : StockValue)
    (hcached : ((cachePool change reads d).run sched).state.cache key = some value) :
    Fresh key value ((cachePool change reads d).run sched).state := by
  have hstart : CacheKept change (cachePool change reads d).journaled.state :=
    ⟨hplaced, fun key value h => .inl (hfresh key value h)⟩
  have hkeeps := (cachePool change reads d).journaled_run sched
  have hend := Pool.run_each (W := cacheWorld change)
    (D := fun j => if j = 0 then mutating else reading j)
    (Q := fun j r u => j = 0 → Returns (fun _ u => Left (Waits change []) u) r u)
    (p := (cachePool change reads d).journaled) ?_ ?_ hstart hsched
  · obtain ⟨hkept, hdone⟩ := hend
    have hlt : 0 < (cachePool change reads d).journaled.threads.length := by
      simp [cachePool, Pool.journaled]
    have hleft : Left (Waits change []) ((cachePool change reads d).journaled.run sched).state :=
      hdone 0 (.ok ()) hlt (hkeeps.done hended) rfl
    rw [← hkeeps.state] at hcached ⊢
    refine (hkept.entries key value hcached).resolve_right fun hwaits => ?_
    exact List.not_mem_nil (hleft key hwaits.1 hwaits.2)
  · rintro j j' l i u v hne - - - hg
    by_cases hj : j = 0
    · subst hj
      rw [if_neg (Ne.symm hne)]
      exact ⟨hg.1 j' (Ne.symm hne), hg.2⟩
    · rw [if_neg hj] at hg
      by_cases hj' : j' = 0
      · rw [if_pos hj']
        exact hg.2.2
      · rw [if_neg hj']
        exact ⟨hg.1 j' (Ne.symm hne), hg.2.1⟩
  · intro j p hp
    rw [cachePool, Pool.journaled, List.getElem?_mapIdx] at hp
    cases j with
    | zero =>
      obtain rfl := Option.some.inj hp
      exact (mutate_holds hstart rfl).mono fun _ _ _ h _ => h
    | succ j =>
      simp only [List.getElem?_cons_succ, List.getElem?_map, Option.map_eq_some_iff] at hp
      obtain ⟨_, ⟨read, -, rfl⟩, rfl⟩ := hp
      exact (read_holds read hstart).mono fun _ _ _ _ h => absurd h (Nat.succ_ne_zero j)

/-- Ids by the number of their letters, which have no second spelling. -/
def tallies : Uuids where
  read text := if text = String.ofList (List.replicate text.length 'a') then some text.length else none
  print n := String.ofList (List.replicate n 'a')
  read_print n := by simp

theorem printed_of_tallies (w : UuidText tallies.read) : w = tallies.printed w.id := by
  obtain ⟨text, n, h⟩ := w
  simp only [tallies] at h
  split at h
  next heq =>
    obtain rfl := Option.some.inj h
    exact UuidText.mk.injEq .. ▸ ⟨heq, rfl⟩
  next => cases h

def takeTwo : StockChange tallies where
  request := .reserve ⟨0, 1, 2, none, none, none, none⟩
  spelled := [(tallies.printed 0, tallies.printed 1)]
  fits _ h := Option.some.inj h

instance (key : StockKey tallies) : Decidable (takeTwo.Spells key) :=
  inferInstanceAs (Decidable (key ∈ keysOf takeTwo.spelled))

theorem spells_takeTwo_iff {t : StockJournal tallies} {ps : List (ℕ × ℕ)} :
    (∀ key, t.state.cache key ≠ none → key.over ps = true → takeTwo.Spells key) ↔
      ∀ key ∈ keysOf (ps.map fun p => (tallies.printed p.1, tallies.printed p.2)),
        t.state.cache key ≠ none → key.over ps = true → takeTwo.Spells key := by
  refine ⟨fun h key _ => h key, fun h key hcached hover => h key ?_ hcached hover⟩
  have hprinted : key.Printed := by
    cases key with
    | stock w v => exact ⟨printed_of_tallies w, printed_of_tallies v⟩
    | availability v => exact printed_of_tallies v
  exact hprinted.mem_keysOf hover

instance (l : ℕ × StockDeskCall tallies) (i : ShopInput) (t : StockJournal tallies) :
    Decidable (SpelledAlike takeTwo l i t) := by
  unfold SpelledAlike
  split
  · infer_instance
  · exact decidable_of_iff' _ spells_takeTwo_iff
  · infer_instance

instance (l : ℕ × StockDeskCall tallies) (i : ShopInput) (t : StockJournal tallies) :
    Decidable (Timely takeTwo l i t) := inferInstanceAs (Decidable (_ ∧ _))

def readPair : StockRead tallies := .stock (tallies.printed 0) (tallies.printed 1)

def pairKey : StockKey tallies := .stock (tallies.printed 0) (tallies.printed 1)

def inOrder (threads : List ℕ) : List (ℕ × ShopInput) := threads.map fun j => (j, { reply := {} })

theorem fiveUnits_placed : Placed fiveUnits := by
  unfold Placed
  decide

/-- The first reader stores its five units before the deletion, the second one loads after it. -/
def storedInTime : List ℕ :=
  [1, 1, 1] ++ List.replicate 5 0 ++ [1] ++ List.replicate 3 0 ++ [2, 2, 2, 2]

theorem cached_stock_fresh_in_time :
    Fresh pairKey (.stock ⟨⟨3, 2, 0, 0⟩, "", "a"⟩)
      ((cachePool takeTwo [readPair, readPair] { shop := fiveUnits }).run (inOrder storedInTime)).state :=
  cached_stock_fresh tallies takeTwo [readPair, readPair] { shop := fiveUnits } (inOrder storedInTime)
    fiveUnits_placed (fun _ _ h => nomatch h) (by decide) rfl pairKey _ (by decide)

/-- Five units are loaded before two are reserved, and stored after the deletion. -/
theorem stale_stock_cached :
    ¬ ∀ (names : Uuids) (change : StockChange names) (reads : List (StockRead names))
        (d : StockDesk names) (sched : List (ℕ × ShopInput)),
      Placed d.shop → (∀ key value, d.cache key = some value → Fresh key value d) →
      (∀ a ∈ sched, a.2.fails = false) →
      (∀ p ∈ ((cachePool change reads d).run sched).threads, p = .done (.ok ())) →
      ∀ key value, ((cachePool change reads d).run sched).state.cache key = some value →
        Fresh key value ((cachePool change reads d).run sched).state := by
  intro h
  have hend := h tallies takeTwo [readPair] { shop := fiveUnits }
    (inOrder ([1, 1, 1] ++ List.replicate 8 0 ++ [1])) fiveUnits_placed (fun _ _ h => nomatch h)
    (by decide) ?_ pairKey (.stock ⟨⟨5, 0, 0, 0⟩, "", "a"⟩) (by decide)
  · have heq : StockValue.stock ⟨⟨5, 0, 0, 0⟩, "", "a"⟩ = .stock ⟨⟨3, 2, 0, 0⟩, "", "a"⟩ := hend
    exact absurd heq (by decide)
  · rintro p (_ | ⟨_, _ | ⟨_, hp⟩⟩)
    · rfl
    · rfl
    · cases hp

end ElectronicsCart.Inventory
