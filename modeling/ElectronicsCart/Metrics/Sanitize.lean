import ElectronicsCart.Core.Values

/-!
# Sanitized metadata

`sanitizeMetadata` of `shared/metrics/utils/sanitize.util.ts`.  It goes down from object to object
and leaves out what stands under a sensitive key.  An array is taken over as it is, with all the
objects in it: what is exported is free of sensitive keys exactly when the arrays that are taken
over are.
-/

namespace ElectronicsCart.Metrics

inductive Scalar where
  | undefined
  | null
  | boolean (b : Bool)
  | number (n : JsNumber)
  | string (s : String)
  | date (ms : ℤ)
deriving DecidableEq, Repr

/-- Nested metadata; the keys of an object are different. -/
inductive Metadata where
  | scalar (s : Scalar)
  | array (xs : List Metadata)
  | object (fields : List (String × Metadata))

/-- What `sanitizeMetadata` puts together from new objects and from values it takes over.  The entry
under `__proto__` is the prototype that the object was given. -/
inductive Sanitized where
  | copied (v : Metadata)
  | object (fields : List (String × Sanitized))

/-! ### Sensitive keys -/

/-- What `SENSITIVE_KEY` looks for, in small letters. -/
def sensitiveWords : List String :=
  ["password", "passwd", "secret", "token", "jwt", "authorization", "apikey", "api_key", "api-key",
    "card", "cvv", "pan", "ssn", "otp"]

/-- `SENSITIVE_KEY.test`; the letters of the pattern stand for themselves and their capitals. -/
def isSensitive (key : String) : Bool :=
  (key.toList.map Char.toLower).tails.any fun t => sensitiveWords.any fun w => w.toList.isPrefixOf t

/-! ### The function -/

/-- Assigning to `__proto__` sets the prototype, and nothing when the value is not an object. -/
def assigned : String → Metadata → Bool
  | key, .scalar s => key != "__proto__" || s == .null
  | _, _ => true

mutual

def sanitizeValue : Metadata → Sanitized
  | .object fields => .object (sanitizeFields fields)
  | .array xs => .copied (.array xs)
  | .scalar s => .copied (.scalar s)

def sanitizeFields : List (String × Metadata) → List (String × Sanitized)
  | [] => []
  | (k, v) :: rest =>
    if isSensitive k then sanitizeFields rest
    else if assigned k v then (k, sanitizeValue v) :: sanitizeFields rest
    else sanitizeFields rest

end

def sanitizeMetadata (input : Option (List (String × Metadata))) : Option Sanitized :=
  input.map fun fields => .object (sanitizeFields fields)

/-! ### Keys at any depth -/

mutual

def keysOf : Metadata → List String
  | .scalar _ => []
  | .array xs => keysOfItems xs
  | .object fields => keysOfFields fields

def keysOfItems : List Metadata → List String
  | [] => []
  | x :: xs => keysOf x ++ keysOfItems xs

def keysOfFields : List (String × Metadata) → List String
  | [] => []
  | (k, v) :: rest => k :: (keysOf v ++ keysOfFields rest)

end

mutual

def Sanitized.keys : Sanitized → List String
  | .copied v => keysOf v
  | .object fields => sanitizedKeys fields

def sanitizedKeys : List (String × Sanitized) → List String
  | [] => []
  | (k, v) :: rest => k :: (v.keys ++ sanitizedKeys rest)

end

mutual

def keysInArrays : Metadata → List String
  | .scalar _ => []
  | .array xs => keysOfItems xs
  | .object fields => keysInFieldArrays fields

def keysInFieldArrays : List (String × Metadata) → List String
  | [] => []
  | (k, v) :: rest =>
    if isSensitive k then keysInFieldArrays rest else keysInArrays v ++ keysInFieldArrays rest

end

def Clean (keys : List String) : Prop := ∀ k ∈ keys, isSensitive k = false

theorem clean_append {ks ls : List String} : Clean (ks ++ ls) ↔ Clean ks ∧ Clean ls :=
  List.forall_mem_append

theorem clean_cons {k : String} {ks : List String} :
    Clean (k :: ks) ↔ isSensitive k = false ∧ Clean ks :=
  List.forall_mem_cons

theorem clean_nil : Clean [] := List.forall_mem_nil _

/-! ### Inputs that differ under sensitive keys only -/

mutual

def Agree : Metadata → Metadata → Prop
  | .scalar s, .scalar t => s = t
  | .array xs, .array ys => AgreeItems xs ys
  | .object fields, .object fields' => AgreeFields fields fields'
  | _, _ => False

def AgreeItems : List Metadata → List Metadata → Prop
  | [], [] => True
  | x :: xs, y :: ys => Agree x y ∧ AgreeItems xs ys
  | _, _ => False

def AgreeFields : List (String × Metadata) → List (String × Metadata) → Prop
  | [], [] => True
  | (k, v) :: rest, (k', v') :: rest' =>
    k = k' ∧ (isSensitive k = true ∨ Agree v v') ∧ AgreeFields rest rest'
  | _, _ => False

end

mutual

theorem Agree.eq_of_clean : (v w : Metadata) → Agree v w → Clean (keysOf v) → v = w
  | .scalar _, .scalar _, h, _ => congrArg Metadata.scalar h
  | .array xs, .array ys, h, hc => congrArg Metadata.array (AgreeItems.eq_of_clean xs ys h hc)
  | .object fields, .object fields', h, hc =>
    congrArg Metadata.object (AgreeFields.eq_of_clean fields fields' h hc)
  | .scalar _, .array _, h, _ => h.elim
  | .scalar _, .object _, h, _ => h.elim
  | .array _, .scalar _, h, _ => h.elim
  | .array _, .object _, h, _ => h.elim
  | .object _, .scalar _, h, _ => h.elim
  | .object _, .array _, h, _ => h.elim

theorem AgreeItems.eq_of_clean :
    (xs ys : List Metadata) → AgreeItems xs ys → Clean (keysOfItems xs) → xs = ys
  | [], [], _, _ => rfl
  | [], _ :: _, h, _ => h.elim
  | _ :: _, [], h, _ => h.elim
  | x :: xs, y :: ys, h, hc => by
    obtain ⟨hx, hxs⟩ := clean_append.mp hc
    rw [Agree.eq_of_clean x y h.1 hx, AgreeItems.eq_of_clean xs ys h.2 hxs]

theorem AgreeFields.eq_of_clean : (fields fields' : List (String × Metadata)) →
    AgreeFields fields fields' → Clean (keysOfFields fields) → fields = fields'
  | [], [], _, _ => rfl
  | [], _ :: _, h, _ => h.elim
  | _ :: _, [], h, _ => h.elim
  | (k, v) :: rest, (k', v') :: rest', h, hc => by
    obtain ⟨hk, hc⟩ := clean_cons.mp hc
    obtain ⟨hv, hrest⟩ := clean_append.mp hc
    obtain ⟨rfl, hvv, hrr⟩ := h
    have hvv : Agree v v' := hvv.resolve_left fun h => absurd (hk.symm.trans h) Bool.false_ne_true
    rw [Agree.eq_of_clean v v' hvv hv, AgreeFields.eq_of_clean rest rest' hrr hrest]

end

/-! ### What is exported -/

theorem assigned_agree {k : String} {v w : Metadata} (h : Agree v w) : assigned k v = assigned k w := by
  cases v with
  | scalar s =>
    cases w with
    | scalar t =>
      obtain rfl : s = t := h
      rfl
    | array _ => exact h.elim
    | object _ => exact h.elim
  | array xs =>
    cases w with
    | scalar _ => exact h.elim
    | array _ => rfl
    | object _ => exact h.elim
  | object fields =>
    cases w with
    | scalar _ => exact h.elim
    | array _ => exact h.elim
    | object _ => rfl

theorem keysInArrays_of_not_assigned {k : String} {v : Metadata} (h : ¬ assigned k v = true) :
    keysInArrays v = [] := by
  cases v with
  | scalar s => rfl
  | array xs => exact absurd rfl h
  | object fields => exact absurd rfl h

mutual

theorem clean_sanitizeValue :
    (v : Metadata) → (Clean (sanitizeValue v).keys ↔ Clean (keysInArrays v))
  | .scalar _ => Iff.rfl
  | .array _ => Iff.rfl
  | .object fields => clean_sanitizeFields fields

theorem clean_sanitizeFields : (fields : List (String × Metadata)) →
    (Clean (sanitizedKeys (sanitizeFields fields)) ↔ Clean (keysInFieldArrays fields))
  | [] => Iff.rfl
  | (k, v) :: rest => by
    simp only [sanitizeFields, keysInFieldArrays]
    by_cases hk : isSensitive k = true
    · rw [if_pos hk, if_pos hk]
      exact clean_sanitizeFields rest
    · rw [if_neg hk, if_neg hk, clean_append]
      by_cases ha : assigned k v = true
      · rw [if_pos ha, sanitizedKeys, clean_cons, clean_append, clean_sanitizeValue v,
          clean_sanitizeFields rest]
        exact and_iff_right (Bool.eq_false_of_not_eq_true hk)
      · rw [if_neg ha, keysInArrays_of_not_assigned ha, clean_sanitizeFields rest]
        exact (and_iff_right clean_nil).symm

end

mutual

theorem sanitizeValue_eq : (v w : Metadata) → Agree v w → Clean (keysInArrays v) →
    sanitizeValue v = sanitizeValue w
  | .scalar s, w, h, _ => by rw [Agree.eq_of_clean (.scalar s) w h clean_nil]
  | .array xs, w, h, hc => by rw [Agree.eq_of_clean (.array xs) w h hc]
  | .object fields, .object fields', h, hc =>
    congrArg Sanitized.object (sanitizeFields_eq fields fields' h hc)
  | .object _, .scalar _, h, _ => h.elim
  | .object _, .array _, h, _ => h.elim

theorem sanitizeFields_eq : (fields fields' : List (String × Metadata)) →
    AgreeFields fields fields' → Clean (keysInFieldArrays fields) →
    sanitizeFields fields = sanitizeFields fields'
  | [], [], _, _ => rfl
  | [], _ :: _, h, _ => h.elim
  | _ :: _, [], h, _ => h.elim
  | (k, v) :: rest, (k', v') :: rest', h, hc => by
    obtain ⟨rfl, hvv, hrr⟩ := h
    simp only [sanitizeFields, keysInFieldArrays] at *
    by_cases hk : isSensitive k = true
    · rw [if_pos hk] at hc
      rw [if_pos hk, if_pos hk]
      exact sanitizeFields_eq rest rest' hrr hc
    · rw [if_neg hk] at hc
      obtain ⟨hv, hrest⟩ := clean_append.mp hc
      have hvv : Agree v v' := hvv.resolve_left hk
      rw [if_neg hk, if_neg hk, ← assigned_agree hvv, sanitizeValue_eq v v' hvv hv,
        sanitizeFields_eq rest rest' hrr hrest]

end

/-- The output has no sensitive key at any depth, and does not tell inputs apart that differ under
sensitive keys only, exactly when no array that is taken over has a sensitive key inside. -/
theorem sanitized_iff (fields : List (String × Metadata)) :
    ((∀ out, sanitizeMetadata (some fields) = some out → Clean out.keys) ∧
      ∀ fields', AgreeFields fields fields' →
        sanitizeMetadata (some fields) = sanitizeMetadata (some fields')) ↔
      Clean (keysInFieldArrays fields) := by
  constructor
  · rintro ⟨hclean, -⟩
    exact (clean_sanitizeFields fields).mp (hclean _ rfl)
  · intro h
    constructor
    · rintro out hout
      obtain rfl := Option.some.inj hout
      exact (clean_sanitizeFields fields).mpr h
    · intro fields' hagree
      exact congrArg (fun fs => some (Sanitized.object fs)) (sanitizeFields_eq fields fields' hagree h)

def itemPassword (password : String) : List (String × Metadata) :=
  [("items", .array [.object [("password", .scalar (.string password))]])]

theorem sanitize_itemPassword (password : String) : sanitizeMetadata (some (itemPassword password)) =
    some (.object [("items", .copied (.array [.object [("password", .scalar (.string password))]]))]) :=
  rfl

/-- A password inside an array is exported. -/
theorem itemPassword_exported :
    isSensitive "password" = true ∧
      (∃ out, sanitizeMetadata (some (itemPassword "x")) = some out ∧ "password" ∈ out.keys) ∧
      AgreeFields (itemPassword "x") (itemPassword "y") ∧
      sanitizeMetadata (some (itemPassword "x")) ≠ sanitizeMetadata (some (itemPassword "y")) := by
  have hsensitive : isSensitive "password" = true := by decide +kernel
  refine ⟨hsensitive, ⟨_, sanitize_itemPassword "x", ?_⟩, ?_, ?_⟩
  · exact List.mem_cons_of_mem _ (List.mem_cons_self ..)
  · exact ⟨rfl, .inr ⟨⟨rfl, .inl hsensitive, trivial⟩, trivial⟩, trivial⟩
  · rw [sanitize_itemPassword, sanitize_itemPassword]
    simp

end ElectronicsCart.Metrics
