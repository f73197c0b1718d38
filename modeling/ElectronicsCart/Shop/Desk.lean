import ElectronicsCart.Core.Alone
import ElectronicsCart.Shop.Effects

/-!
# A service with a cache beside the shop

The calls of `CacheService` in `shared/cache/cache.service.ts` as `OrdersCacheService` makes them.
An entry stays until its key is deleted; a `get`, `set` or `del` that fails is logged and dropped.
-/

namespace ElectronicsCart

open Interleaving

/-- The shop, the tables only this service uses, and the entries of its cache. -/
structure Desk (κ ν ρ : Type) where
  shop : Shop := {}
  own : ρ
  cache : List (κ × ν) := []

inductive DeskCall (κ μ : Type) where
  | get (key : κ)
  | set (key : κ)
  | del (key : κ)
  /-- with the key that its request deletes in the end -/
  | shop (due : Option κ) (call : ShopCall)
  | own (call : μ)
deriving DecidableEq, Repr

abbrev DeskProg (κ ν ρ μ α : Type) := Prog (DeskCall κ μ) ShopInput (Desk κ ν ρ) Failure α

instance {κ ν ρ μ : Type} : Lockable (DeskCall κ μ) (Desk κ ν ρ) ShopLock where
  locks d := d.shop.locks
  setLocks m d := { d with shop := { d.shop with locks := m } }
  acquireCall key token := .shop none (.acquire key token)
  releaseCall key token := .shop none (.release key token)
  resource := ShopLock.resource
  locks_setLocks _ _ := rfl

namespace Desk

variable {κ ν ρ μ α β : Type}

def onShop (due : Option κ) (p : ShopProg α) : DeskProg κ ν ρ μ α :=
  p.zoom (.shop due) Desk.shop fun s d => { d with shop := s }

theorem onShop_bind (due : Option κ) (p : ShopProg α) (f : α → ShopProg β) :
    (onShop due (p.bind f) : DeskProg κ ν ρ μ β) = (onShop due p).bind fun a => onShop due (f a) :=
  Prog.zoom_bind p f

theorem onShop_query (due : Option κ) (l : ShopCall) (f : ShopInput → Shop → α) :
    (onShop due (query l f) : DeskProg κ ν ρ μ α) = query (.shop due l) fun i d => f i d.shop := rfl

theorem onShop_atomic (due : Option κ) (l : ShopCall) (f : ShopInput → Shop → Except Failure (α × Shop)) :
    (onShop due (atomic l f) : DeskProg κ ν ρ μ α) = atomic (.shop due l) fun i d =>
      (f i d.shop).map fun r => (r.1, { d with shop := r.2 }) := by
  have hcall : ∀ (i : ShopInput) (d : Desk κ ν ρ),
      (if i.fails = true then (.error .database, d) else
        settle d ((f i d.shop).map fun r => (r.1, { d with shop := r.2 }))) =
      ((if i.fails = true then (.error .database, d.shop) else settle d.shop (f i d.shop)).1,
        ({ d with shop := (if i.fails = true then (.error .database, d.shop)
          else settle d.shop (f i d.shop)).2 } : Desk κ ν ρ)) := by
    intro i d
    cases hf : i.fails with
    | true => rfl
    | false => cases hr : f i d.shop <;> rfl
  simp only [atomic, hcall]
  rfl

section Cache

variable [DecidableEq κ]

def entry (key : κ) (d : Desk κ ν ρ) : Option ν :=
  (d.cache.find? fun e => e.1 == key).map Prod.snd

def drop (key : κ) (d : Desk κ ν ρ) : Desk κ ν ρ :=
  { d with cache := d.cache.filter fun e => e.1 != key }

def put (key : κ) (value : ν) (d : Desk κ ν ρ) : Desk κ ν ρ :=
  { d with cache := (key, value) :: (d.drop key).cache }

def cacheGet (key : κ) : DeskProg κ ν ρ μ (Option ν) :=
  Prog.call (.get key) fun i d => (.ok (if i.fails then none else d.entry key), d)

def cacheSet (key : κ) (value : ν) : DeskProg κ ν ρ μ Unit :=
  Prog.call (.set key) fun i d => (.ok (), if i.fails then d else d.put key value)

def cacheDel (key : κ) : DeskProg κ ν ρ μ Unit :=
  Prog.call (.del key) fun i d => (.ok (), if i.fails then d else d.drop key)

def getOrSet (key : κ) (factory : DeskProg κ ν ρ μ ν) : DeskProg κ ν ρ μ ν := do
  let hit ← cacheGet key
  match hit with
  | some value => pure value
  | none => do
    let value ← factory
    cacheSet key value
    pure value

variable {key : κ} {value : ν} {d : Desk κ ν ρ}

theorem mem_of_entry (h : d.entry key = some value) : (key, value) ∈ d.cache := by
  simp only [entry, Option.map_eq_some_iff] at h
  obtain ⟨e, he, rfl⟩ := h
  have hkey : e.1 = key := by
    simpa using List.find?_some he
  exact hkey ▸ List.mem_of_find?_eq_some he

theorem mem_drop {e : κ × ν} : e ∈ (d.drop key).cache ↔ e ∈ d.cache ∧ e.1 ≠ key := by
  simp [drop]

theorem mem_put {e : κ × ν} :
    e ∈ (d.put key value).cache ↔ e = (key, value) ∨ e ∈ d.cache ∧ e.1 ≠ key := by
  simp [put, mem_drop]

end Cache

/-! ### Requests that run alone -/

section Alone

variable {W : World (DeskCall κ μ) ShopInput (Desk κ ν ρ)} {G : Desk κ ν ρ → Desk κ ν ρ → Prop}
  {R : α → Desk κ ν ρ → Prop} {d : Desk κ ν ρ}

/-- Nobody else runs; every call does what `G` allows and keeps the invariant of `W`, and a result is
as `R` says. -/
def Serves (W : World (DeskCall κ μ) ShopInput (Desk κ ν ρ)) (G : Desk κ ν ρ → Desk κ ν ρ → Prop)
    (R : α → Desk κ ν ρ → Prop) (p : DeskProg κ ν ρ μ α) (d : Desk κ ν ρ) : Prop :=
  let D := Discipline.alone fun _ _ d d' => G d d'
  Holds W D D (Returns R) p d

theorem serves_pure {a : α} (h : W.inv d → R a d) : Serves W G R (pure a) d := by
  rintro t rfl hi
  exact h hi

theorem Serves.mono {R' : α → Desk κ ν ρ → Prop} {p : DeskProg κ ν ρ μ α}
    (hR : ∀ a u, W.inv u → R a u → R' a u) (h : Serves W G R p d) : Serves W G R' p d := by
  refine Holds.mono ?_ h
  rintro (e | a) u hi hu
  · trivial
  · exact hR a u hi hu

theorem Serves.bind {S : β → Desk κ ν ρ → Prop} {p : DeskProg κ ν ρ μ β}
    {k : β → DeskProg κ ν ρ μ α} (hp : Serves W G S p d) (hi : W.inv d)
    (hk : ∀ b u, W.inv u → S b u → Serves W G R (k b) u) : Serves W G R (p.bind k) d := by
  refine Holds.bind (Holds.mono ?_ hp) hi
  rintro (e | b) u hu hb
  · trivial
  · exact hk b u hu hb

theorem serves_ensure {c : Prop} [Decidable c] {e : Failure} {k : Unit → DeskProg κ ν ρ μ α}
    (hk : c → Serves W G R (k ()) d) : Serves W G R ((Prog.ensure c e).bind k) d :=
  Holds.ensureBind hk fun _ _ _ _ => trivial

theorem serves_orThrow {o : Option β} {e : Failure} {k : β → DeskProg κ ν ρ μ α}
    (hk : ∀ b, o = some b → Serves W G R (k b) d) : Serves W G R ((Prog.orThrow e o).bind k) d :=
  Holds.orThrowBind hk fun _ _ _ _ => trivial

variable (hG : ∀ d, G d d)
include hG

theorem serves_queryBind {l : DeskCall κ μ} {f : ShopInput → Desk κ ν ρ → β}
    {k : β → DeskProg κ ν ρ μ α} (hk : ∀ i, W.ok l i d → Serves W G R (k (f i d)) d) :
    Serves W G R ((query l f).bind k) d := by
  refine holds_queryBind ?_
  rintro t rfl - i ho
  exact ⟨hG d, fun _ _ _ => trivial, fun _ => hk i ho⟩

theorem serves_atomic {l : DeskCall κ μ}
    {f : ShopInput → Desk κ ν ρ → Except Failure (α × Desk κ ν ρ)}
    (h : ∀ i a u, W.inv d → f i d = .ok (a, u) → W.inv u ∧ G d u ∧ R a u) :
    Serves W G R (atomic l f) d := by
  refine holds_atomic ?_
  rintro t rfl hi i -
  refine ⟨hG d, fun _ _ _ _ _ => trivial, fun a u _ hu => ?_⟩
  obtain ⟨hinv, hg, hR⟩ := h i a u hi hu
  refine ⟨hinv, hg, ?_⟩
  rintro v rfl -
  exact hR

section Cache

variable [DecidableEq κ]

theorem serves_getOrSet {key : κ} {R : ν → Desk κ ν ρ → Prop} {factory : DeskProg κ ν ρ μ ν}
    (hi : W.inv d) (hhit : ∀ v, (key, v) ∈ d.cache → R v d)
    (hmiss : Serves W G (fun v u => R v u ∧
      (W.inv (u.put key v) ∧ G u (u.put key v) ∧ R v (u.put key v))) factory d) :
    Serves W G R (getOrSet key factory) d := by
  refine Holds.callBind ?_
  rintro t rfl - i -
  refine ⟨hi, hG d, ?_⟩
  have hfill : Serves W G R (factory.bind fun value => (cacheSet key value).bind fun _ => pure value)
      d := by
    refine hmiss.bind hi fun v u hu hv => ?_
    refine Holds.callBind ?_
    rintro x rfl - i' -
    cases hf : i'.fails with
    | true => exact ⟨hu, hG u, serves_pure fun _ => hv.1⟩
    | false => exact ⟨hv.2.1, hv.2.2.1, serves_pure fun _ => hv.2.2.2⟩
  dsimp only
  split
  next v hv =>
    have hentry : d.entry key = some v := by
      cases hf : i.fails with
      | true => simp [hf] at hv
      | false => simpa [hf] using hv
    exact serves_pure fun _ => hhit v (mem_of_entry hentry)
  next => exact hfill

theorem serves_delBind {key : κ} {k : Unit → DeskProg κ ν ρ μ α}
    (hfail : ∀ i, W.ok (.del key) i d → i.fails = true → Serves W G R (k ()) d)
    (hdrop : W.inv d → W.inv (d.drop key) ∧ G d (d.drop key) ∧ Serves W G R (k ()) (d.drop key)) :
    Serves W G R ((cacheDel key).bind k) d := by
  refine Holds.callBind ?_
  rintro t rfl hi i ho
  cases hf : i.fails with
  | true => exact ⟨hi, hG d, hfail i ho hf⟩
  | false => exact hdrop hi

end Cache

omit hG in
theorem serves_onShop {S : ShopCall → Bool} {due : Option κ} {p : ShopProg α} (hp : Calls S p)
    (h : ∀ l i (d : Desk κ ν ρ) s', S l = true → Effect l i.now d.shop s' → W.ok (.shop due l) i d →
      W.inv d → W.inv { d with shop := s' } ∧ G d { d with shop := s' }) :
    Serves W G (fun _ _ => True) (onShop due p) d := by
  have hzoom : (onShop due p : DeskProg κ ν ρ μ α).Every (fun l i d => W.ok l i d ∧ W.inv d)
      fun m i u u' => ∃ l s', m = .shop due l ∧ (S l = true ∧ Effect l i.now u.shop s') ∧
        u' = { u with shop := s' } := hp.zoom fun _ _ _ _ => trivial
  refine (Holds.of_every_forked (hzoom.imp (fun _ _ _ h => h) ?_) d).mono ?_
  · rintro _ i u u' ⟨hok, hi⟩ ⟨l, s', rfl, ⟨hl, he⟩, rfl⟩
    exact h l i u s' hl he hok hi
  · rintro (e | a) u - -
    · trivial
    · trivial

end Alone

end Desk

end ElectronicsCart
