import ElectronicsCart.Core.Environment
import ElectronicsCart.Lib.Contention
import ElectronicsCart.Lib.Table

/-!
# The permissions that the modules install at boot

`payments-bootstrap.service.ts` and its siblings of shipping, warranty, marketing and analytics: when
the application starts, each creates the permissions of its module that are missing and links them to
the administrators' roles.  Every instance of the application does so, at the same time as the others,
and gives up at the first call that is rejected.
-/

namespace ElectronicsCart.Access

open Interleaving Relational

/-! ### State and calls -/

structure Permission where
  id : ℕ
  code : String
  module : String
  action : String
  description : String
  status : String := "active"
  deleted : Bool := false
deriving DecidableEq, Repr

structure Role where
  id : ℕ
  code : String
  deleted : Bool := false
deriving DecidableEq, Repr

structure RolePermission where
  id : ℕ
  roleId : ℕ
  permissionId : ℕ
  status : String := "active"
  deleted : Bool := false
deriving DecidableEq, Repr

instance : Keyed Permission := ⟨Permission.id⟩
instance : Keyed Role := ⟨Role.id⟩
instance : Keyed RolePermission := ⟨RolePermission.id⟩

structure Grants where
  permissions : Table Permission := .empty
  roles : Table Role := .empty
  rolePermissions : Table RolePermission := .empty

inductive Booted where
  | payments | shipping | warranty | marketing | analytics
deriving DecidableEq, Repr

inductive BootCall where
  | findPermission (code : String)
  | createPermission (code : String)
  | findRoles
  | findPermissions
  | findLink (roleId permissionId : ℕ)
  | createLink (roleId permissionId : ℕ)
deriving DecidableEq, Repr

/-- A call and the module whose bootstrap makes it. -/
structure BootLabel where
  module : Booted
  call : BootCall
deriving DecidableEq, Repr

abbrev BootProg := Prog BootLabel (Input Unit) Grants Failure

/-! ### The services -/

structure PermissionDef where
  code : String
  module : String
  action : String
  description : String
deriving DecidableEq, Repr

def PaymentsBootstrapService.defs : List PermissionDef :=
  [⟨"payments.read", "payments", "read", "View payments"⟩,
    ⟨"payments.write", "payments", "write", "Mutate payments"⟩]

def ShippingBootstrapService.defs : List PermissionDef :=
  [⟨"shipping.read", "shipping", "read", "View shipping"⟩,
    ⟨"shipping.write", "shipping", "write", "Mutate shipping"⟩]

def WarrantyBootstrapService.defs : List PermissionDef :=
  [⟨"warranty.read", "warranty", "read", "View warranty"⟩,
    ⟨"warranty.write", "warranty", "write", "Mutate warranty"⟩,
    ⟨"service.read", "service", "read", "View service ops"⟩,
    ⟨"service.write", "service", "write", "Mutate service ops"⟩]

def MarketingBootstrapService.defs : List PermissionDef :=
  [⟨"cms.read", "cms", "read", "View CMS"⟩, ⟨"cms.write", "cms", "write", "Mutate CMS"⟩,
    ⟨"marketing.read", "marketing", "read", "View marketing"⟩,
    ⟨"marketing.write", "marketing", "write", "Mutate marketing"⟩]

def AnalyticsBootstrapService.defs : List PermissionDef :=
  [⟨"analytics.read", "analytics", "read", "View analytics dashboards and KPIs"⟩,
    ⟨"analytics.write", "analytics", "write", "Configure analytics, alerts, KPIs"⟩,
    ⟨"report.read", "report", "read", "View saved reports"⟩,
    ⟨"report.write", "report", "write", "Create reports, schedules, exports"⟩]

def Booted.defs : Booted → List PermissionDef
  | .payments => PaymentsBootstrapService.defs
  | .shipping => ShippingBootstrapService.defs
  | .warranty => WarrantyBootstrapService.defs
  | .marketing => MarketingBootstrapService.defs
  | .analytics => AnalyticsBootstrapService.defs

def Booted.codes (m : Booted) : List String := m.defs.map PermissionDef.code

def adminRoleCodes : List String := ["admin", "super_admin"]

def PermissionDef.row (d : PermissionDef) (n : ℕ) : Permission where
  id := n
  code := d.code
  module := d.module
  action := d.action
  description := d.description
  status := "active"

def Grants.permit (g : Grants) (d : PermissionDef) : Grants :=
  { g with permissions := g.permissions.insert d.row }

def Grants.link (g : Grants) (roleId permissionId : ℕ) : Grants :=
  { g with rolePermissions := g.rolePermissions.insert fun n => ⟨n, roleId, permissionId, "active", false⟩ }

/-- Under `uq_permissions_code_active` and `uq_permissions_module_action_active`. -/
def insertPermission (d : PermissionDef) (g : Grants) : Except Failure (Unit × Grants) := do
  check (!g.permissions.rows.any fun p => !p.deleted && p.code == d.code) "uq_permissions_code_active"
  check (!g.permissions.rows.any fun p => !p.deleted && (p.module == d.module && p.action == d.action))
    "uq_permissions_module_action_active"
  return ((), g.permit d)

/-- Under the foreign keys of `role_permissions` and `uq_role_permissions_active`. -/
def insertLink (roleId permissionId : ℕ) (g : Grants) : Except Failure (Unit × Grants) := do
  check (g.roles.find? roleId).isSome "role_permissions_role_id_fkey"
  check (g.permissions.find? permissionId).isSome "role_permissions_permission_id_fkey"
  check (!g.rolePermissions.rows.any fun x =>
      !x.deleted && (x.roleId == roleId && x.permissionId == permissionId))
    "uq_role_permissions_active"
  return ((), g.link roleId permissionId)

/-- The rows of a `findMany` without `orderBy`, in the order the database gives them. -/
def found {ρ : Type} [Keyed ρ] (T : Table ρ) (p : ρ → Bool) (rank : ℕ → ℕ) : List ρ :=
  (T.rows.filter p).insertionSort fun a b => rank (key a) ≤ rank (key b)

/-- The first loop: a permission is created unless its code is found. -/
def createMissing (m : Booted) : List PermissionDef → BootProg Unit
  | [] => pure ()
  | d :: rest => do
    let existing ← query ⟨m, .findPermission d.code⟩ fun _ g =>
      g.permissions.first? fun p => p.code == d.code && !p.deleted
    match existing with
    | some _ => createMissing m rest
    | none => do
      atomic ⟨m, .createPermission d.code⟩ fun _ g => insertPermission d g
      createMissing m rest

/-- The second loop, over the pairs of a role and a permission. -/
def linkAll (m : Booted) : List (Role × Permission) → BootProg Unit
  | [] => pure ()
  | (role, perm) :: rest => do
    let link ← query ⟨m, .findLink role.id perm.id⟩ fun _ g =>
      g.rolePermissions.first? fun x => x.roleId == role.id && x.permissionId == perm.id && !x.deleted
    match link with
    | some _ => linkAll m rest
    | none => do
      atomic ⟨m, .createLink role.id perm.id⟩ fun _ g => insertLink role.id perm.id g
      linkAll m rest

def linkAdmins (m : Booted) : BootProg Unit := do
  let adminRoles ← query ⟨m, .findRoles⟩ fun i g =>
    found g.roles (fun r => adminRoleCodes.contains r.code && !r.deleted) i.rank
  let perms ← query ⟨m, .findPermissions⟩ fun i g =>
    found g.permissions (fun p => m.codes.contains p.code && !p.deleted) i.rank
  linkAll m (adminRoles ×ˢ perms)

/-- The handler only logs. -/
def onModuleInit (m : Booted) : BootProg Unit :=
  tryCatch (do
    createMissing m m.defs
    linkAdmins m) fun _ => pure ()

/-! ### What the bootstraps keep and what they bring about -/

/-- The unique indexes on codes and links; and no live row has the module and the action of a
definition but another code. -/
structure Indexed (g : Grants) : Prop where
  codes : ∀ p ∈ g.permissions.rows, ∀ p' ∈ g.permissions.rows, p.deleted = false → p'.deleted = false →
    p.code = p'.code → p.id = p'.id
  links : ∀ x ∈ g.rolePermissions.rows, ∀ x' ∈ g.rolePermissions.rows, x.deleted = false →
    x'.deleted = false → x.roleId = x'.roleId → x.permissionId = x'.permissionId → x.id = x'.id
  named : ∀ p ∈ g.permissions.rows, p.deleted = false → ∀ m, ∀ d ∈ Booted.defs m,
    p.module = d.module → p.action = d.action → p.code = d.code

def Owned (m : Booted) (p : Permission) : Prop := p.deleted = false ∧ p.code ∈ m.codes

def IsAdmin (r : Role) : Prop := r.deleted = false ∧ r.code ∈ adminRoleCodes

def Linked (g : Grants) (r : Role) (p : Permission) : Prop :=
  ∃ x ∈ g.rolePermissions.rows, x.deleted = false ∧ x.roleId = r.id ∧ x.permissionId = p.id

/-- Every definition of the module has its permission, and every administrator has them all. -/
structure Installed (m : Booted) (g : Grants) : Prop where
  present : ∀ d ∈ m.defs, ∃ p ∈ g.permissions.rows, p.deleted = false ∧ p.code = d.code
  linked : ∀ r ∈ g.roles.rows, IsAdmin r → ∀ p ∈ g.permissions.rows, Owned m p → Linked g r p

/-- Nothing is taken away, and the roles stay. -/
structure Grows (g g' : Grants) : Prop where
  permissions : ∀ p ∈ g.permissions.rows, p ∈ g'.permissions.rows
  links : ∀ x ∈ g.rolePermissions.rows, x ∈ g'.rolePermissions.rows
  roles : g'.roles = g.roles

structure Quiet (m : Booted) (g g' : Grants) : Prop extends Grows g g' where
  owned : ∀ p ∈ g'.permissions.rows, Owned m p → p ∈ g.permissions.rows
  newLinks : ∀ x ∈ g'.rolePermissions.rows, x.deleted = false →
    ∀ p ∈ g'.permissions.rows, Owned m p → x.permissionId = p.id → x ∈ g.rolePermissions.rows

variable {m m' : Booted} {g g' g'' : Grants} {d : PermissionDef} {ds : List PermissionDef}
  {role : Role} {perm p : Permission} {pairs : List (Role × Permission)}

@[simp] theorem Grows.refl (g : Grants) : Grows g g := ⟨fun _ h => h, fun _ h => h, rfl⟩

theorem Grows.trans (h : Grows g g') (h' : Grows g' g'') : Grows g g'' where
  permissions p hp := h'.permissions p (h.permissions p hp)
  links x hx := h'.links x (h.links x hx)
  roles := h'.roles.trans h.roles

@[simp] theorem Quiet.refl (m : Booted) (g : Grants) : Quiet m g g :=
  ⟨.refl g, fun _ hp _ => hp, fun _ hx _ _ _ _ _ => hx⟩

theorem Quiet.trans (h : Quiet m g g') (h' : Quiet m g' g'') : Quiet m g g'' := by
  refine ⟨h.toGrows.trans h'.toGrows, ?_, ?_⟩
  · exact fun p hp ho => h.owned p (h'.owned p hp ho) ho
  · intro x hx hlive p hp ho hid
    exact h.newLinks x (h'.newLinks x hx hlive p hp ho hid) hlive p (h'.owned p hp ho) ho hid

theorem Linked.grows (h : Linked g role perm) (hg : Grows g g') : Linked g' role perm := by
  obtain ⟨x, hx, hrest⟩ := h
  exact ⟨x, hg.links x hx, hrest⟩

theorem Installed.quiet (h : Installed m g) (hq : Quiet m g g') : Installed m g' := by
  constructor
  · intro d hd
    obtain ⟨p, hp, hrest⟩ := h.present d hd
    exact ⟨p, hq.permissions p hp, hrest⟩
  · intro r hr hadmin p hp ho
    rw [hq.roles] at hr
    exact (h.linked r hr hadmin p (hq.owned p hp ho) ho).grows hq.toGrows

/-! ### One call -/

theorem code_eq : ∀ d ∈ Booted.defs m, d.code = d.module ++ "." ++ d.action := by
  cases m <;> decide +kernel

theorem codes_disjoint (h : m' ≠ m) : ∀ c ∈ m'.codes, c ∉ m.codes := by
  cases m <;> cases m' <;> first | exact absurd rfl h | decide +kernel

theorem insertPermission_cases {u : Unit} (h : insertPermission d g = .ok (u, g')) :
    (∀ p ∈ g.permissions.rows, p.deleted = false → p.code ≠ d.code) ∧
      g' = g.permit d := by
  simp only [insertPermission, bind_eq_ok, check_eq_ok, pure_eq_ok, Prod.mk.injEq, exists_const] at h
  obtain ⟨hcode, -, -, rfl⟩ := h
  refine ⟨?_, rfl⟩
  simpa using hcode

theorem insertLink_cases {u : Unit} (h : insertLink role.id perm.id g = .ok (u, g')) :
    (∀ x ∈ g.rolePermissions.rows, x.deleted = false → x.roleId = role.id → x.permissionId ≠ perm.id) ∧
      g' = g.link role.id perm.id := by
  simp only [insertLink, bind_eq_ok, check_eq_ok, pure_eq_ok, Prod.mk.injEq, exists_const] at h
  obtain ⟨-, -, hlink, -, rfl⟩ := h
  refine ⟨?_, rfl⟩
  simpa using hlink

theorem insertPermission_ok (hi : Indexed g) (hd : d ∈ m.defs)
    (hnone : ∀ p ∈ g.permissions.rows, p.deleted = false → p.code ≠ d.code) :
    insertPermission d g = .ok ((), g.permit d) := by
  have hcode : (!g.permissions.rows.any fun p => !p.deleted && p.code == d.code) = true := by
    simpa using hnone
  have hname : (!g.permissions.rows.any fun p =>
      !p.deleted && (p.module == d.module && p.action == d.action)) = true := by
    simp only [Bool.not_eq_true', List.any_eq_false, Bool.and_eq_true, beq_iff_eq, not_and]
    intro p hp hlive hmodule haction
    have hlive' : p.deleted = false := by simpa using hlive
    exact hnone p hp hlive' (hi.named p hp hlive' m d hd hmodule haction)
  simp only [insertPermission, hcode, hname]
  rfl

theorem insertLink_ok (hrole : role ∈ g.roles.rows) (hperm : perm ∈ g.permissions.rows)
    (hnone : ∀ x ∈ g.rolePermissions.rows, x.deleted = false → x.roleId = role.id →
      x.permissionId ≠ perm.id) :
    insertLink role.id perm.id g = .ok ((), g.link role.id perm.id) := by
  have hlink : (!g.rolePermissions.rows.any fun x =>
      !x.deleted && (x.roleId == role.id && x.permissionId == perm.id)) = true := by
    simpa using hnone
  have hr : g.roles.find? role.id = some role := Table.find?_eq_some_iff.mpr ⟨hrole, rfl⟩
  have hp : g.permissions.find? perm.id = some perm := Table.find?_eq_some_iff.mpr ⟨hperm, rfl⟩
  simp only [insertLink, hlink, hr, hp]
  rfl

theorem row_key : ∀ n, key (d.row n) = n := fun _ => rfl

theorem grows_permission :
    Grows g (g.permit d) where
  permissions _ hp := (Table.mem_insert row_key).mpr (.inl hp)
  links _ hx := hx
  roles := rfl

theorem grows_link (roleId permissionId : ℕ) :
    Grows g (g.link roleId permissionId) where
  permissions _ hp := hp
  links _ hx := (Table.mem_insert fun _ => rfl).mpr (.inl hx)
  roles := rfl

theorem indexed_permission (hi : Indexed g) (hd : d ∈ m.defs)
    (hnone : ∀ p ∈ g.permissions.rows, p.deleted = false → p.code ≠ d.code) :
    Indexed (g.permit d) := by
  refine ⟨?_, hi.links, ?_⟩
  · intro p hp p' hp' hlive hlive' hcode
    refine Table.insert_single row_key (q := fun r => r.deleted = false ∧ r.code = p.code) ?_ ?_ p hp p' hp'
      ⟨hlive, rfl⟩ ⟨hlive', hcode.symm⟩
    · exact fun r hr r' hr' h h' => hi.codes r hr r' hr' h.1 h'.1 (h.2.trans h'.2.symm)
    · exact fun r hr h hnew => hnone r hr h.1 (h.2.trans hnew.2.symm)
  · intro p hp hlive m' d' hd' hmodule haction
    rcases (Table.mem_insert row_key).mp hp with hp | rfl
    · exact hi.named p hp hlive m' d' hd' hmodule haction
    · change d.code = d'.code
      rw [code_eq d hd, code_eq d' hd']
      exact congrArg₂ (fun a b => a ++ "." ++ b) hmodule haction

theorem indexed_link (hi : Indexed g)
    (hnone : ∀ x ∈ g.rolePermissions.rows, x.deleted = false → x.roleId = role.id →
      x.permissionId ≠ perm.id) :
    Indexed (g.link role.id perm.id) := by
  refine ⟨hi.codes, ?_, hi.named⟩
  intro x hx x' hx' hlive hlive' hrole hperm
  refine Table.insert_single (fun _ => rfl) (q := fun r => r.deleted = false ∧ r.roleId = x.roleId ∧
    r.permissionId = x.permissionId) ?_ ?_ x hx x' hx' ⟨hlive, rfl, rfl⟩ ⟨hlive', hrole.symm, hperm.symm⟩
  · intro r hr r' hr' h h'
    exact hi.links r hr r' hr' h.1 h'.1 (h.2.1.trans h'.2.1.symm) (h.2.2.trans h'.2.2.symm)
  · intro r hr h hnew
    exact hnone r hr h.1 (h.2.1.trans hnew.2.1.symm) (h.2.2.trans hnew.2.2.symm)

theorem quiet_permission (hne : m' ≠ m) (hd : d ∈ m'.defs) :
    Quiet m g (g.permit d) := by
  refine ⟨grows_permission, ?_, fun _ hx _ _ _ _ _ => hx⟩
  intro p hp ho
  rcases (Table.mem_insert row_key).mp hp with hp | rfl
  · exact hp
  · exact absurd ho.2 (codes_disjoint hne d.code (List.mem_map_of_mem hd))

theorem quiet_link (hne : m' ≠ m) (hperm : perm ∈ g.permissions.rows) (ho : Owned m' perm) :
    Quiet m g (g.link role.id perm.id) := by
  refine ⟨grows_link _ _, fun _ hp _ => hp, ?_⟩
  intro x hx _ p hp hown hid
  rcases (Table.mem_insert fun _ => rfl).mp hx with hx | rfl
  · exact hx
  · obtain rfl := Table.eq_of_key_eq hperm hp hid
    exact absurd hown.2 (codes_disjoint hne perm.code ho.2)

/-! ### The loops -/

def everyone : Discipline BootLabel (Input Unit) Grants := ⟨Grows, fun _ _ _ _ => True, Grows.refl, Grows.trans⟩

def undisturbed (m : Booted) : Discipline BootLabel (Input Unit) Grants :=
  ⟨Quiet m, fun _ _ _ _ => True, Quiet.refl m, Quiet.trans⟩

/-- The database does not fail the calls of the module. -/
def bootWorld (m : Booted) : World BootLabel (Input Unit) Grants :=
  ⟨fun l i _ => l.module = m → i.fails = false, Indexed⟩

def Succeeds (m : Booted) (r : Except Failure Unit) (g : Grants) : Prop := r = .ok () ∧ Installed m g

/-- The rest of a bootstrap, if nobody adds anything for the module any more. -/
abbrev Ahead (m : Booted) (p : BootProg Unit) (g : Grants) : Prop :=
  Holds (bootWorld m) (undisturbed m) (undisturbed m) (Succeeds m) p g

abbrev Contending (m : Booted) (p : BootProg Unit) (g : Grants) : Prop :=
  Contends (bootWorld m) (undisturbed m) everyone (Succeeds m) p g

section Calls

variable {β : Type} {call : BootCall} {k : β → BootProg Unit}

theorem ahead_queryBind {f : Input Unit → Grants → β}
    (h : ∀ t, Quiet m g t → Indexed t → ∀ i, Ahead m (k (f i t)) t) :
    Ahead m ((query ⟨m, call⟩ f).bind k) g := by
  apply Holds.callBind
  intro t ht hi i ho
  have hf : i.fails = false := ho rfl
  refine ⟨hi, trivial, ?_⟩
  simpa [hf] using h t ht hi i

theorem ahead_atomicBind {f : Input Unit → Grants → Except Failure (β × Grants)}
    (h : ∀ t, Quiet m g t → Indexed t → ∀ i, ∃ b u, f i t = .ok (b, u) ∧ Indexed u ∧ Ahead m (k b) u) :
    Ahead m ((atomic ⟨m, call⟩ f).bind k) g := by
  apply Holds.callBind
  intro t ht hi i ho
  have hf : i.fails = false := ho rfl
  obtain ⟨b, u, hu, hinv, hk⟩ := h t ht hi i
  simp only [hf, hu, settle]
  exact ⟨hinv, trivial, hk⟩

theorem contending_queryBind {f : Input Unit → Grants → β}
    (h : ∀ t, Grows g t → Indexed t → ∀ i, Contending m (k (f i t)) t) :
    Contending m ((query ⟨m', call⟩ f).bind k) g := by
  apply Contends.callBind
  intro t ht hi i _
  refine ⟨hi, .refl t, ?_⟩
  cases hf : i.fails with
  | true => exact Quiet.refl m t
  | false => exact ⟨.inl (Quiet.refl m t), h t ht hi i⟩

theorem contending_atomicBind {f : Input Unit → Grants → Except Failure (β × Grants)}
    (h : ∀ t, Grows g t → Indexed t → ∀ i b u, f i t = .ok (b, u) →
      Indexed u ∧ Grows t u ∧ (m' ≠ m → Quiet m t u) ∧ (m' = m → Ahead m (k b) u) ∧
        Contending m (k b) u) : Contending m ((atomic ⟨m', call⟩ f).bind k) g := by
  apply Contends.callBind
  intro t ht hi i _
  have hstay : Indexed t ∧ Grows t t ∧ Quiet m t t := ⟨hi, .refl t, .refl m t⟩
  cases hf : i.fails with
  | true => exact hstay
  | false =>
    cases hr : f i t with
    | error e => exact hstay
    | ok r =>
      obtain ⟨hinv, hgrows, hquiet, hahead, hk⟩ := h t ht hi i r.1 r.2 hr
      refine ⟨hinv, hgrows, ?_, hk⟩
      by_cases hm : m' = m
      · exact .inr (hahead hm)
      · exact .inl (hquiet hm)

end Calls

/-- The definitions outside `ds` have their permissions. -/
def MissingIn (m : Booted) (ds : List PermissionDef) (g : Grants) : Prop :=
  ∀ d ∈ m.defs, d ∈ ds ∨ ∃ p ∈ g.permissions.rows, p.deleted = false ∧ p.code = d.code

theorem MissingIn.grows (h : MissingIn m ds g) (hg : Grows g g') : MissingIn m ds g' := by
  intro d hd
  refine (h d hd).imp_right ?_
  rintro ⟨p, hp, hrest⟩
  exact ⟨p, hg.permissions p hp, hrest⟩

theorem MissingIn.tail (h : MissingIn m (d :: ds) g)
    (hp : ∃ p ∈ g.permissions.rows, p.deleted = false ∧ p.code = d.code) : MissingIn m ds g := by
  intro d' hd'
  rcases h d' hd' with hmem | hrow
  · rcases List.mem_cons.mp hmem with rfl | hmem
    · exact .inr hp
    · exact .inl hmem
  · exact .inr hrow

theorem MissingIn.permit (h : MissingIn m (d :: ds) g) : MissingIn m ds (g.permit d) :=
  (h.grows grows_permission).tail
    ⟨d.row g.permissions.next, (Table.mem_insert row_key).mpr (.inr rfl), rfl, rfl⟩

theorem exists_of_first? {c : String} (h : g.permissions.first? (fun p => p.code == c && !p.deleted) = some p) :
    ∃ p ∈ g.permissions.rows, p.deleted = false ∧ p.code = c := by
  obtain ⟨hp, hpick⟩ := Table.first?_mem h
  simp only [Bool.and_eq_true, beq_iff_eq, Bool.not_eq_true'] at hpick
  exact ⟨p, hp, hpick.2, hpick.1⟩

theorem none_of_first? {c : String} (h : g.permissions.first? (fun p => p.code == c && !p.deleted) = none) :
    ∀ p ∈ g.permissions.rows, p.deleted = false → p.code ≠ c := by
  intro p hp hlive hcode
  have hpick := List.find?_eq_none.mp h p hp
  simp [hlive, hcode] at hpick

theorem ahead_createMissing {k : Unit → BootProg Unit} (hds : ∀ d ∈ ds, d ∈ m.defs)
    (hk : ∀ t, Indexed t → MissingIn m [] t → Ahead m (k ()) t) (hi : Indexed g) (hg : MissingIn m ds g) :
    Ahead m ((createMissing m ds).bind k) g := by
  induction ds generalizing g with
  | nil => exact hk g hi hg
  | cons d ds ih =>
    have hd : d ∈ m.defs := hds d List.mem_cons_self
    have hrest : ∀ {t}, Indexed t → MissingIn m ds t → Ahead m ((createMissing m ds).bind k) t :=
      fun hi' hg' => ih (fun d' hd' => hds d' (List.mem_cons_of_mem d hd')) hi' hg'
    simp only [createMissing, Prog.bind_eq, Prog.bind_assoc]
    apply ahead_queryBind
    intro t ht hit _
    cases hfound : t.permissions.first? fun p => p.code == d.code && !p.deleted with
    | some p => exact hrest hit ((hg.grows ht.toGrows).tail (exists_of_first? hfound))
    | none =>
      simp only [Prog.bind_assoc]
      apply ahead_atomicBind
      intro t' ht' hit' _
      -- nobody has created the permission since the look
      have hnone : ∀ p ∈ t'.permissions.rows, p.deleted = false → p.code ≠ d.code := by
        intro p hp hlive hcode
        have hown : Owned m p := ⟨hlive, hcode ▸ List.mem_map_of_mem hd⟩
        exact none_of_first? hfound p (ht'.owned p hp hown) hlive hcode
      have hnew : Indexed (t'.permit d) := indexed_permission hit' hd hnone
      have hmissing := ((hg.grows ht.toGrows).grows ht'.toGrows).permit
      exact ⟨(), _, insertPermission_ok hit' hd hnone, hnew, hrest hnew hmissing⟩

theorem contending_createMissing {k : Unit → BootProg Unit} (hds : ∀ d ∈ ds, d ∈ m'.defs)
    (hahead : m' = m → ∀ t, Indexed t → MissingIn m [] t → Ahead m (k ()) t)
    (hk : ∀ t, Indexed t → MissingIn m' [] t → Contending m (k ()) t) (hi : Indexed g)
    (hg : MissingIn m' ds g) : Contending m ((createMissing m' ds).bind k) g := by
  induction ds generalizing g with
  | nil => exact hk g hi hg
  | cons d ds ih =>
    have hd : d ∈ m'.defs := hds d List.mem_cons_self
    have hds' : ∀ d' ∈ ds, d' ∈ m'.defs := fun d' hd' => hds d' (List.mem_cons_of_mem d hd')
    simp only [createMissing, Prog.bind_eq, Prog.bind_assoc]
    apply contending_queryBind
    intro t ht hit _
    cases hfound : t.permissions.first? fun p => p.code == d.code && !p.deleted with
    | some p => exact ih hds' hit ((hg.grows ht).tail (exists_of_first? hfound))
    | none =>
      simp only [Prog.bind_assoc]
      apply contending_atomicBind
      intro t' ht' hit' _ _ u hu
      obtain ⟨hnone, rfl⟩ := insertPermission_cases hu
      have hnew : Indexed (t'.permit d) := indexed_permission hit' hd hnone
      have hmissing := ((hg.grows ht).grows ht').permit
      refine ⟨hnew, grows_permission, fun hne => quiet_permission hne hd, ?_, ih hds' hnew hmissing⟩
      rintro rfl
      exact ahead_createMissing hds' (hahead rfl) hnew hmissing

def Listed (m : Booted) (pairs : List (Role × Permission)) (g : Grants) : Prop :=
  ∀ x ∈ pairs, x.1 ∈ g.roles.rows ∧ x.2 ∈ g.permissions.rows ∧ Owned m x.2

/-- Every administrator has a permission for every definition, or is to get it by one of the pairs. -/
def Covered (m : Booted) (pairs : List (Role × Permission)) (g : Grants) : Prop :=
  ∀ r ∈ g.roles.rows, IsAdmin r → ∀ d ∈ m.defs, ∃ p ∈ g.permissions.rows,
    p.deleted = false ∧ p.code = d.code ∧ ((r, p) ∈ pairs ∨ Linked g r p)

theorem Listed.grows (h : Listed m pairs g) (hg : Grows g g') : Listed m pairs g' := by
  intro x hx
  obtain ⟨hr, hp, ho⟩ := h x hx
  rw [hg.roles]
  exact ⟨hr, hg.permissions _ hp, ho⟩

theorem Covered.grows (h : Covered m pairs g) (hg : Grows g g') : Covered m pairs g' := by
  intro r hr hadmin d hd
  rw [hg.roles] at hr
  obtain ⟨p, hp, hlive, hcode, hl⟩ := h r hr hadmin d hd
  exact ⟨p, hg.permissions p hp, hlive, hcode, hl.imp_right fun hl => hl.grows hg⟩

theorem Covered.tail (h : Covered m ((role, perm) :: pairs) g) (hl : Linked g role perm) :
    Covered m pairs g := by
  intro r hr hadmin d hd
  obtain ⟨p, hp, hlive, hcode, hmem | hlink⟩ := h r hr hadmin d hd
  · rcases List.mem_cons.mp hmem with heq | hmem
    · obtain ⟨rfl, rfl⟩ := Prod.mk.inj heq
      exact ⟨p, hp, hlive, hcode, .inr hl⟩
    · exact ⟨p, hp, hlive, hcode, .inl hmem⟩
  · exact ⟨p, hp, hlive, hcode, .inr hlink⟩

theorem Covered.link (h : Covered m ((role, perm) :: pairs) g) :
    Covered m pairs (g.link role.id perm.id) :=
  (h.grows (grows_link _ _)).tail ⟨_, (Table.mem_insert fun _ => rfl).mpr (.inr rfl), rfl, rfl, rfl⟩

theorem Covered.installed (h : Covered m [] g) (hi : Indexed g) (hp : MissingIn m [] g) : Installed m g := by
  constructor
  · intro d hd
    exact (hp d hd).resolve_left List.not_mem_nil
  · intro r hr hadmin p hpm ho
    obtain ⟨d, hd, hcode⟩ := List.mem_map.mp ho.2
    obtain ⟨p', hp', hlive, hcode', hmem | hlink⟩ := h r hr hadmin d hd
    · cases hmem
    · have hid : key p' = key p := hi.codes p' hp' p hpm hlive ho.1 (hcode'.trans hcode)
      rwa [Table.eq_of_key_eq hp' hpm hid] at hlink

theorem linked_of_first? {x : RolePermission} (h : g.rolePermissions.first?
    (fun x => x.roleId == role.id && x.permissionId == perm.id && !x.deleted) = some x) :
    Linked g role perm := by
  obtain ⟨hx, hpick⟩ := Table.first?_mem h
  simp only [Bool.and_eq_true, beq_iff_eq, Bool.not_eq_true'] at hpick
  exact ⟨x, hx, hpick.2, hpick.1⟩

theorem unlinked_of_first? (h : g.rolePermissions.first?
    (fun x => x.roleId == role.id && x.permissionId == perm.id && !x.deleted) = none) :
    ∀ x ∈ g.rolePermissions.rows, x.deleted = false → x.roleId = role.id → x.permissionId ≠ perm.id := by
  intro x hx hlive hrole hperm
  have hpick := List.find?_eq_none.mp h x hx
  simp [hlive, hrole, hperm] at hpick

theorem ahead_linkAll (hi : Indexed g) (hp : MissingIn m [] g) (hl : Listed m pairs g)
    (hc : Covered m pairs g) : Ahead m (linkAll m pairs) g := by
  induction pairs generalizing g with
  | nil =>
    intro t ht hit
    have hgrows : Grows g t := ht.toGrows
    exact ⟨rfl, (hc.grows hgrows).installed hit (hp.grows hgrows)⟩
  | cons x pairs ih =>
    obtain ⟨role, perm⟩ := x
    have hrest : ∀ {t}, Listed m ((role, perm) :: pairs) t → Listed m pairs t :=
      fun hlt x hx => hlt x (List.mem_cons_of_mem _ hx)
    simp only [linkAll, Prog.bind_eq]
    apply ahead_queryBind
    intro t ht hit _
    have hlt := hl.grows ht.toGrows
    have hct := hc.grows ht.toGrows
    have hpt := hp.grows ht.toGrows
    cases hfound : t.rolePermissions.first? fun x =>
        x.roleId == role.id && x.permissionId == perm.id && !x.deleted with
    | some x => exact ih hit hpt (hrest hlt) (hct.tail (linked_of_first? hfound))
    | none =>
      apply ahead_atomicBind
      intro t' ht' hit' _
      obtain ⟨hrole, hperm, ho⟩ := hlt.grows ht'.toGrows (role, perm) List.mem_cons_self
      -- nobody has linked the two since the look
      have hnone : ∀ x ∈ t'.rolePermissions.rows, x.deleted = false → x.roleId = role.id →
          x.permissionId ≠ perm.id := by
        intro x hx hlive hr hid
        exact unlinked_of_first? hfound x (ht'.newLinks x hx hlive perm hperm ho hid) hlive hr hid
      have hnew : Indexed (t'.link role.id perm.id) := indexed_link hit' hnone
      refine ⟨(), _, insertLink_ok hrole hperm hnone, hnew, ih hnew ?_ ?_ ?_⟩
      · exact (hpt.grows ht'.toGrows).grows (grows_link _ _)
      · exact hrest ((hlt.grows ht'.toGrows).grows (grows_link _ _))
      · exact (hct.grows ht'.toGrows).link

theorem contending_linkAll (hi : Indexed g) (hp : MissingIn m' [] g) (hl : Listed m' pairs g)
    (hc : Covered m' pairs g) : Contending m (linkAll m' pairs) g := by
  induction pairs generalizing g with
  | nil => trivial
  | cons x pairs ih =>
    obtain ⟨role, perm⟩ := x
    have hrest : ∀ {t}, Listed m' ((role, perm) :: pairs) t → Listed m' pairs t :=
      fun hlt x hx => hlt x (List.mem_cons_of_mem _ hx)
    simp only [linkAll, Prog.bind_eq]
    apply contending_queryBind
    intro t ht hit _
    have hlt := hl.grows ht
    have hct := hc.grows ht
    have hpt := hp.grows ht
    cases hfound : t.rolePermissions.first? fun x =>
        x.roleId == role.id && x.permissionId == perm.id && !x.deleted with
    | some x => exact ih hit hpt (hrest hlt) (hct.tail (linked_of_first? hfound))
    | none =>
      apply contending_atomicBind
      intro t' ht' hit' _ _ u hu
      obtain ⟨hnone, rfl⟩ := insertLink_cases hu
      obtain ⟨-, hperm, ho⟩ := hlt.grows ht' (role, perm) List.mem_cons_self
      have hnew : Indexed (t'.link role.id perm.id) := indexed_link hit' hnone
      have hpn := (hpt.grows ht').grows (grows_link role.id perm.id)
      have hln := hrest ((hlt.grows ht').grows (grows_link role.id perm.id))
      have hcn := (hct.grows ht').link
      refine ⟨hnew, grows_link _ _, fun hne => quiet_link hne hperm ho, ?_, ih hnew hpn hln hcn⟩
      rintro rfl
      exact ahead_linkAll hnew hpn hln hcn

/-! ### Whole boots -/

theorem mem_found {ρ : Type} [Keyed ρ] {T : Table ρ} {pick : ρ → Bool} {rank : ℕ → ℕ} {x : ρ} :
    x ∈ found T pick rank ↔ x ∈ T.rows ∧ pick x = true := by
  rw [found, List.mem_insertionSort, List.mem_filter]

theorem pairs_read {t : Grants} (rank rank' : ℕ → ℕ) (ht : Grows g t) (hp : MissingIn m [] t) :
    Listed m (found g.roles (fun r => adminRoleCodes.contains r.code && !r.deleted) rank ×ˢ
        found t.permissions (fun p => m.codes.contains p.code && !p.deleted) rank') t ∧
      Covered m (found g.roles (fun r => adminRoleCodes.contains r.code && !r.deleted) rank ×ˢ
        found t.permissions (fun p => m.codes.contains p.code && !p.deleted) rank') t := by
  constructor
  · rintro ⟨r, p⟩ hx
    obtain ⟨hr, hpm⟩ := List.pair_mem_product.mp hx
    obtain ⟨hp, hpick⟩ := mem_found.mp hpm
    simp only [Bool.and_eq_true, List.contains_iff_mem, Bool.not_eq_true'] at hpick
    refine ⟨?_, hp, hpick.2, hpick.1⟩
    rw [ht.roles]
    exact (mem_found.mp hr).1
  · intro r hr hadmin d hd
    rw [ht.roles] at hr
    obtain ⟨p, hpm, hlive, hcode⟩ := (hp d hd).resolve_left List.not_mem_nil
    refine ⟨p, hpm, hlive, hcode, .inl (List.pair_mem_product.mpr ⟨?_, ?_⟩)⟩
    · exact mem_found.mpr ⟨hr, by simp [hadmin.1, hadmin.2]⟩
    · have hown : p.code ∈ m.codes := hcode ▸ List.mem_map_of_mem hd
      exact mem_found.mpr ⟨hpm, by simp [hlive, hown]⟩

theorem missingIn_defs (m : Booted) (g : Grants) : MissingIn m m.defs g := fun _ hd => .inl hd

theorem ahead_linkAdmins (hp : MissingIn m [] g) : Ahead m (linkAdmins m) g := by
  apply ahead_queryBind
  intro t ht _ i
  apply ahead_queryBind
  intro t' ht' hit' i'
  have hpt := (hp.grows ht.toGrows).grows ht'.toGrows
  obtain ⟨hl, hc⟩ := pairs_read i.rank i'.rank ht'.toGrows hpt
  exact ahead_linkAll hit' hpt hl hc

theorem contending_linkAdmins (hp : MissingIn m' [] g) : Contending m (linkAdmins m') g := by
  apply contending_queryBind
  intro t ht _ i
  apply contending_queryBind
  intro t' ht' hit' i'
  have hpt := (hp.grows ht).grows ht'
  obtain ⟨hl, hc⟩ := pairs_read i.rank i'.rank ht' hpt
  exact contending_linkAll hit' hpt hl hc

theorem succeeds_stable {r : Except Failure Unit} (hq : Quiet m g g') (h : Succeeds m r g) :
    Succeeds m r g' :=
  ⟨h.1, h.2.quiet hq⟩

theorem ahead_onModuleInit (hi : Indexed g) : Ahead m (onModuleInit m) g := by
  have hbody : Ahead m ((createMissing m m.defs).bind fun _ => linkAdmins m) g :=
    ahead_createMissing (fun d hd => hd) (fun t _ hp => ahead_linkAdmins hp) hi (missingIn_defs m g)
  refine Holds.tryCatch (Holds.mono ?_ hbody) hi
  rintro r t - ⟨rfl, hinstalled⟩
  exact fun t' ht' _ => ⟨rfl, hinstalled.quiet ht'⟩

theorem contending_onModuleInit (hi : Indexed g) : Contending m (onModuleInit m') g := by
  have hbody : Contending m ((createMissing m' m'.defs).bind fun _ => linkAdmins m') g := by
    refine contending_createMissing (fun d hd => hd) ?_ (fun t _ hp => contending_linkAdmins hp) hi
      (missingIn_defs m' g)
    rintro rfl t - hp
    exact ahead_linkAdmins hp
  refine Contends.recover (fun e => ⟨_, rfl⟩) ?_ ?_ hbody
  · exact fun r t h => ⟨(), h.1⟩
  · exact fun r t t' ht h => succeeds_stable ht h

/-- The bootstraps of any modules, of one or several instances, all at once. -/
def bootPool (boots : List Booted) (g : Grants) : Pool BootLabel (Input Unit) Grants Failure Unit :=
  ⟨boots.map onModuleInit, g⟩

theorem led_boot {boots : List Booted} (hm : m ∈ boots) (hi : Indexed g) :
    (bootPool boots g).Led (bootWorld m) (undisturbed m) everyone (Succeeds m) := by
  refine ⟨hi, ?_, onModuleInit m, List.mem_map_of_mem hm, ahead_onModuleInit hi⟩
  intro t ht
  obtain ⟨m', -, rfl⟩ := List.mem_map.mp ht
  exact contending_onModuleInit hi

/-- However the calls of any number of bootstraps of any modules interleave, when all of them have
ended, a module none of whose own calls failed has exactly one live permission for each of its
definitions, and every administrator's role has exactly one live link to it; although each bootstrap
may have given up at a row that another one created first. -/
theorem permissions_installed (boots : List Booted) (g : Grants) (sched : List (ℕ × Input Unit))
    (m : Booted) (hm : m ∈ boots) (hg : Indexed g)
    (hok : (bootPool boots g).Admits (fun l i _ => l.module = m → i.fails = false) sched)
    (hend : ∀ t ∈ ((bootPool boots g).run sched).threads, t.isDone = true) :
    ∀ d ∈ m.defs, ∃ p ∈ ((bootPool boots g).run sched).state.permissions.rows,
      (p.deleted = false ∧ p.code = d.code) ∧
      (∀ p' ∈ ((bootPool boots g).run sched).state.permissions.rows,
        p'.deleted = false → p'.code = d.code → p' = p) ∧
      ∀ r ∈ ((bootPool boots g).run sched).state.roles.rows, r.deleted = false → r.code ∈ adminRoleCodes →
        ∃ x ∈ ((bootPool boots g).run sched).state.rolePermissions.rows,
          (x.deleted = false ∧ x.roleId = r.id ∧ x.permissionId = p.id) ∧
          ∀ x' ∈ ((bootPool boots g).run sched).state.rolePermissions.rows,
            x'.deleted = false → x'.roleId = r.id → x'.permissionId = p.id → x' = x := by
  have hled := (led_boot hm hg).run hok
  obtain ⟨-, -, hinstalled⟩ := hled.post hend
  have hi : Indexed ((bootPool boots g).run sched).state := hled.inv
  intro d hd
  obtain ⟨p, hp, hlive, hcode⟩ := hinstalled.present d hd
  refine ⟨p, hp, ⟨hlive, hcode⟩, ?_, ?_⟩
  · intro p' hp' hlive' hcode'
    exact Table.eq_of_key_eq hp' hp (hi.codes p' hp' p hp hlive' hlive (hcode'.trans hcode.symm))
  · intro r hr hrlive hradmin
    have hown : Owned m p := ⟨hlive, hcode ▸ List.mem_map_of_mem hd⟩
    obtain ⟨x, hx, hxlive, hxrole, hxperm⟩ := hinstalled.linked r hr ⟨hrlive, hradmin⟩ p hp hown
    refine ⟨x, hx, ⟨hxlive, hxrole, hxperm⟩, ?_⟩
    intro x' hx' hlive' hrole' hperm'
    exact Table.eq_of_key_eq hx' hx (hi.links x' hx' x hx hlive' hxlive (hrole'.trans hxrole.symm)
      (hperm'.trans hxperm.symm))

def freshGrants : Grants where
  roles := ((Table.empty.insert fun n => ⟨n, "super_admin", false⟩).insert fun n =>
    ⟨n, "admin", false⟩).insert fun n => ⟨n, "customer", false⟩

/-- Two instances look for the first permission of payments; the second one creates it. -/
def bootTurns : List (ℕ × Input Unit) :=
  ([0, 1, 1, 0] ++ List.replicate 20 1 ++ List.replicate 20 2).map fun j => (j, { reply := () })

theorem permissions_installed_twice :
    ((bootPool [.payments, .payments, .shipping] freshGrants).run
      bootTurns).state.rolePermissions.rows.length = 8 ∧
      ∀ d ∈ PaymentsBootstrapService.defs,
        ∃ p ∈ ((bootPool [.payments, .payments, .shipping] freshGrants).run bootTurns).state.permissions.rows,
          p.deleted = false ∧ p.code = d.code := by
  have hg : Indexed freshGrants := ⟨by decide, by decide, fun p hp => absurd hp List.not_mem_nil⟩
  refine ⟨by decide +kernel, fun d hd => ?_⟩
  obtain ⟨p, hp, hcode, -⟩ := permissions_installed [.payments, .payments, .shipping] freshGrants bootTurns
    .payments List.mem_cons_self hg (by decide +kernel) (by decide +kernel) d hd
  exact ⟨p, hp, hcode⟩

end ElectronicsCart.Access
