import ElectronicsCart.Core.Values
import Mathlib.Data.List.Induction
import Mathlib.Data.Rat.Floor
import Mathlib.Tactic.Linarith

/-!
# The buffered exporter

`BufferedExporter` of `shared/metrics/exporters/buffered.exporter.ts`.  A flush takes both lists out
of the buffer and hands their records to the sink one by one, waiting for each; records are exported
and other flushes begin while it waits.  When the sink rejects a record the flush ends: that record
and those behind it are neither in the buffer nor at the sink.
-/

namespace ElectronicsCart.Metrics

/-! ### The buffer -/

structure Record (α : Type) where
  id : ℕ
  value : α
deriving DecidableEq, Repr

structure Buffer (M E : Type) where
  metrics : List (Record M) := []
  events : List (Record E) := []
deriving DecidableEq, Repr

variable {M E : Type}

def Buffer.size (b : Buffer M E) : ℕ := b.metrics.length + b.events.length

/-- `splice(0, n)`; the count is rounded towards zero. -/
def dropFirst {α : Type} (n : ℚ) (xs : List α) : List α := xs.drop ⌊n⌋₊

def dropMetrics (max : ℚ) (b : Buffer M E) : Buffer M E :=
  let dropM := min (b.metrics.length : ℚ) (b.size - max)
  if 0 < dropM then { b with metrics := dropFirst dropM b.metrics } else b

def dropEvents (max : ℚ) (b : Buffer M E) : Buffer M E :=
  let still := (b.size : ℚ) - max
  if 0 < still then { b with events := dropFirst (min (b.events.length : ℚ) still) b.events } else b

def trim (maxSize : JsNumber) (b : Buffer M E) : Buffer M E :=
  match maxSize with
  | .finite max => if (b.size : ℚ) - max ≤ 0 then b else dropEvents max (dropMetrics max b)
  | .infinity true => {}
  | _ => b

/-! ### The exporter -/

/-- A call of `flush`: the lists it took out of the buffer, what the sink has accepted of them, and
what is left to hand over. -/
structure Flush (M E : Type) where
  taken : Buffer M E
  sent : Buffer M E := {}
  left : Buffer M E
  ended : Bool := false
deriving DecidableEq, Repr

structure Exporter (M E : Type) where
  buffer : Buffer M E := {}
  /-- the number of the next call that exports -/
  next : ℕ := 0
  flushes : List (Flush M E) := []
deriving DecidableEq, Repr

structure ExporterConfig where
  maxSize : JsNumber := .finite 10000
  sink : Bool := true
deriving DecidableEq, Repr

/-- The calls, and the answers of the sink to the call that the `i`th flush waits for: that of its
next record, or after the last one that of the sink's own `flush`. -/
inductive ExporterAction (M E : Type) where
  | exportMetric (value : M)
  | exportEvent (value : E)
  | flush
  | sinkAccepts (i : ℕ)
  | sinkRejects (i : ℕ)

def Flush.accepted (f : Flush M E) : Flush M E :=
  match f.left.metrics, f.left.events with
  | m :: ms, es => { f with
      sent := { f.sent with metrics := f.sent.metrics ++ [m] }
      left := ⟨ms, es⟩ }
  | [], e :: es => { f with
      sent := { f.sent with events := f.sent.events ++ [e] }
      left := ⟨[], es⟩ }
  | [], [] => { f with ended := true }

def Flush.rejected (f : Flush M E) : Flush M E := { f with ended := true }

/-- Rewrites the `i`th flush, if it has not ended. -/
def Exporter.answer (i : ℕ) (g : Flush M E → Flush M E) (s : Exporter M E) : Option (Exporter M E) :=
  match s.flushes[i]? with
  | some f => if f.ended then none else some { s with flushes := s.flushes.set i (g f) }
  | none => none

def Exporter.step (cfg : ExporterConfig) (s : Exporter M E) :
    ExporterAction M E → Option (Exporter M E)
  | .exportMetric value => some { s with
      buffer := trim cfg.maxSize { s.buffer with metrics := s.buffer.metrics ++ [⟨s.next, value⟩] }
      next := s.next + 1 }
  | .exportEvent value => some { s with
      buffer := trim cfg.maxSize { s.buffer with events := s.buffer.events ++ [⟨s.next, value⟩] }
      next := s.next + 1 }
  | .flush =>
    if cfg.sink then some { s with
      buffer := {}
      flushes := s.flushes ++ [{ taken := s.buffer, left := s.buffer }] }
    else some { s with buffer := {} }
  | .sinkAccepts i => s.answer i Flush.accepted
  | .sinkRejects i => s.answer i Flush.rejected

def Exporter.run (cfg : ExporterConfig) (as : List (ExporterAction M E)) : Option (Exporter M E) :=
  as.foldlM (Exporter.step cfg) {}

/-! ### What the buffer is for -/

def metricsAfter (ms : List M) : ExporterAction M E → List M
  | .exportMetric value => ms ++ [value]
  | .flush => []
  | _ => ms

def metricsSince (as : List (ExporterAction M E)) : List M := as.foldl metricsAfter []

def eventsAfter (es : List E) : ExporterAction M E → List E
  | .exportEvent value => es ++ [value]
  | .flush => []
  | _ => es

def eventsSince (as : List (ExporterAction M E)) : List E := as.foldl eventsAfter []

def WithinBound (n : ℕ) : JsNumber → Prop
  | .finite max => (n : ℚ) ≤ max
  | .infinity negative => negative = false
  | .nan => False

/-- The events are those from before, with the new one, or no metric is retained. -/
def KeepsEvents (s s' : Exporter M E) : ExporterAction M E → Prop
  | .exportMetric _ => s'.buffer.metrics = [] ∨ s'.buffer.events = s.buffer.events
  | .exportEvent value =>
    s'.buffer.metrics = [] ∨ s'.buffer.events = s.buffer.events ++ [⟨s.next, value⟩]
  | _ => True

/-- Every record that the flush took reached the sink or is in the buffer. -/
def Delivered (f : Flush M E) (b : Buffer M E) : Prop :=
  (∀ m ∈ f.taken.metrics, m ∈ f.sent.metrics ∨ m ∈ b.metrics) ∧
    ∀ e ∈ f.taken.events, e ∈ f.sent.events ∨ e ∈ b.events

def RejectsRecord (s : Exporter M E) : ExporterAction M E → Prop
  | .sinkRejects i => ∃ f, s.flushes[i]? = some f ∧ f.left ≠ {}
  | _ => False

/-! ### Trimming -/

/-- What `trim` makes of a buffer. -/
structure Trimmed (b b' : Buffer M E) : Prop where
  metrics : b'.metrics <:+ b.metrics
  events : b'.events <:+ b.events
  dropped : b'.metrics = [] ∨ b'.events = b.events

theorem drop_min {α : Type} (x : ℚ) (xs : List α) :
    dropFirst (min (xs.length : ℚ) x) xs = xs.drop ⌊x⌋₊ := by
  rw [dropFirst]
  rcases le_total (xs.length : ℚ) x with h | h
  · rw [min_eq_left h, Nat.floor_natCast, List.drop_length, List.drop_eq_nil_of_le (Nat.le_floor h)]
  · rw [min_eq_right h]

theorem dropMetrics_eq (max : ℚ) (b : Buffer M E) :
    dropMetrics max b = { b with metrics := b.metrics.drop ⌊(b.size : ℚ) - max⌋₊ } := by
  simp only [dropMetrics, drop_min]
  split
  · rfl
  next h =>
    have hmin : min (b.metrics.length : ℚ) (b.size - max) ≤ 0 := not_lt.mp h
    rw [← drop_min, dropFirst, Nat.floor_of_nonpos hmin, List.drop_zero]

theorem dropEvents_eq (max : ℚ) (b : Buffer M E) :
    dropEvents max b = { b with events := b.events.drop ⌊(b.size : ℚ) - max⌋₊ } := by
  simp only [dropEvents, drop_min]
  split
  · rfl
  next h => rw [Nat.floor_of_nonpos (not_lt.mp h), List.drop_zero]

theorem trim_finite (max : ℚ) (b : Buffer M E) :
    trim (.finite max) b = dropEvents max (dropMetrics max b) := by
  rw [trim]
  split
  next h =>
    have hmetrics : dropMetrics max b = b := by
      rw [dropMetrics_eq, Nat.floor_of_nonpos h, List.drop_zero]
    rw [hmetrics, dropEvents_eq, Nat.floor_of_nonpos h, List.drop_zero]
  · rfl

theorem dropMetrics_or (max : ℚ) (b : Buffer M E) :
    (dropMetrics max b).metrics = [] ∨ ⌊((dropMetrics max b).size : ℚ) - max⌋₊ = 0 := by
  rw [dropMetrics_eq]
  rcases le_or_gt b.metrics.length ⌊(b.size : ℚ) - max⌋₊ with h | h
  · exact .inl (List.drop_eq_nil_of_le h)
  · refine .inr (Nat.floor_eq_zero.mpr ?_)
    have hlt := Nat.lt_floor_add_one ((b.size : ℚ) - max)
    generalize ⌊(b.size : ℚ) - max⌋₊ = k at h hlt
    have hsize : ((b.metrics.drop k).length + b.events.length : ℕ) + (k : ℚ) = b.size := by
      norm_cast
      rw [List.length_drop]
      show b.metrics.length - k + b.events.length + k = b.metrics.length + b.events.length
      omega
    show ((b.metrics.drop k).length + b.events.length : ℕ) - max < 1
    linarith

theorem trimmed_trim (maxSize : JsNumber) (b : Buffer M E) : Trimmed b (trim maxSize b) := by
  have hself : Trimmed b b := ⟨List.suffix_rfl, List.suffix_rfl, .inr rfl⟩
  cases maxSize with
  | nan => exact hself
  | infinity negative =>
    cases negative with
    | true => exact ⟨List.nil_suffix, List.nil_suffix, .inl rfl⟩
    | false => exact hself
  | finite max =>
    have hor := dropMetrics_or max b
    rw [trim_finite, dropEvents_eq]
    rw [dropMetrics_eq] at *
    refine ⟨List.drop_suffix _ _, List.drop_suffix _ _, ?_⟩
    rcases hor with h | h
    · exact .inl h
    · exact .inr (by rw [h, List.drop_zero])

theorem size_trim (n : ℕ) (b : Buffer M E) : (trim (.finite n) b).size ≤ n := by
  rw [trim_finite, dropEvents_eq, dropMetrics_eq]
  simp only [Buffer.size, List.length_drop, Nat.floor_sub_natCast, Nat.floor_natCast]
  omega

/-! ### Numbered records -/

section Numbers

variable {α : Type} {xs ys taken sent left : List (Record α)} {n n' : ℕ}

/-- Records in the order of the calls that exported them, all before call `n`. -/
structure Numbered (xs : List (Record α)) (n : ℕ) : Prop where
  increasing : xs.Pairwise fun x y => x.id < y.id
  below : ∀ x ∈ xs, x.id < n

theorem Numbered.nil : Numbered ([] : List (Record α)) n :=
  ⟨List.Pairwise.nil, fun _ h => absurd h List.not_mem_nil⟩

theorem Numbered.mono (h : Numbered xs n) (hn : n ≤ n') : Numbered xs n' :=
  ⟨h.increasing, fun x hx => (h.below x hx).trans_le hn⟩

theorem Numbered.suffix (h : Numbered xs n) (hs : ys <:+ xs) : Numbered ys n :=
  ⟨h.increasing.sublist hs.sublist, fun y hy => h.below y (hs.subset hy)⟩

theorem Numbered.push (h : Numbered xs n) (value : α) : Numbered (xs ++ [⟨n, value⟩]) (n + 1) := by
  constructor
  · rw [List.pairwise_append]
    refine ⟨h.increasing, List.pairwise_singleton _ _, ?_⟩
    intro x hx y hy
    obtain rfl := List.mem_singleton.mp hy
    exact h.below x hx
  · intro x hx
    rcases List.mem_append.mp hx with hx | hx
    · exact Nat.lt_succ_of_lt (h.below x hx)
    · obtain rfl := List.mem_singleton.mp hx
      exact Nat.lt_succ_self n

/-- The records that a flush has taken, those the sink has accepted and those that are left; the
records of the buffer `xs` are newer. -/
structure Handed (taken sent left xs : List (Record α)) (n : ℕ) : Prop where
  parts : taken = sent ++ left
  numbered : Numbered taken n
  newer : ∀ x ∈ taken, ∀ y ∈ xs, x.id < y.id

theorem Handed.start (h : Numbered taken n) : Handed taken [] taken [] n :=
  ⟨rfl, h, fun _ _ _ hy => absurd hy List.not_mem_nil⟩

theorem Handed.mono (h : Handed taken sent left xs n) (hn : n ≤ n')
    (hys : ∀ y ∈ ys, y ∈ xs ∨ n ≤ y.id) : Handed taken sent left ys n' := by
  refine ⟨h.parts, h.numbered.mono hn, ?_⟩
  intro x hx y hy
  rcases hys y hy with hy | hy
  · exact h.newer x hx y hy
  · exact (h.numbered.below x hx).trans_le hy

theorem Handed.accept {x : Record α} (h : Handed taken sent (x :: left) xs n) :
    Handed taken (sent ++ [x]) left xs n :=
  ⟨by rw [h.parts, List.append_assoc, List.singleton_append], h.numbered, h.newer⟩

theorem Handed.reached_iff (h : Handed taken sent left xs n) :
    (∀ x ∈ taken, x ∈ sent ∨ x ∈ xs) ↔ left = [] := by
  constructor
  · intro hall
    by_contra hne
    obtain ⟨x, rest, rfl⟩ := List.exists_cons_of_ne_nil hne
    have hx : x ∈ taken := by
      rw [h.parts]
      exact List.mem_append_right _ (List.mem_cons_self ..)
    rcases hall x hx with hsent | hxs
    · have hpair := h.numbered.increasing
      rw [h.parts, List.pairwise_append] at hpair
      exact lt_irrefl _ (hpair.2.2 x hsent x (List.mem_cons_self ..))
    · exact lt_irrefl _ (h.newer x hx x hxs)
  · rintro rfl x hx
    rw [h.parts, List.append_nil] at hx
    exact .inl hx

end Numbers

/-! ### Runs -/

variable {cfg : ExporterConfig} {s s' : Exporter M E} {a : ExporterAction M E}

structure Flush.Sound (s : Exporter M E) (f : Flush M E) : Prop where
  metrics : Handed f.taken.metrics f.sent.metrics f.left.metrics s.buffer.metrics s.next
  events : Handed f.taken.events f.sent.events f.left.events s.buffer.events s.next

structure Exporter.Sound (s : Exporter M E) : Prop where
  metrics : Numbered s.buffer.metrics s.next
  events : Numbered s.buffer.events s.next
  flushes : ∀ f ∈ s.flushes, f.Sound s

theorem sound_init : ({} : Exporter M E).Sound :=
  ⟨Numbered.nil, Numbered.nil, fun _ h => absurd h List.not_mem_nil⟩

theorem Flush.Sound.accepted {f : Flush M E} (h : f.Sound s) : f.accepted.Sound s := by
  obtain ⟨taken, sent, ⟨ms, es⟩, ended⟩ := f
  cases ms with
  | cons m ms => exact ⟨h.metrics.accept, h.events⟩
  | nil =>
    cases es with
    | cons e es => exact ⟨h.metrics, h.events.accept⟩
    | nil => exact ⟨h.metrics, h.events⟩

theorem answer_eq_some {i : ℕ} {g : Flush M E → Flush M E} (h : s.answer i g = some s') :
    ∃ f, s.flushes[i]? = some f ∧ f.ended = false ∧ s' = { s with flushes := s.flushes.set i (g f) } := by
  unfold Exporter.answer at h
  split at h
  next f hf =>
    split at h
    · cases h
    next hended => exact ⟨f, hf, Bool.eq_false_of_not_eq_true hended, (Option.some.inj h).symm⟩
  · cases h

theorem sound_answer {i : ℕ} {g : Flush M E → Flush M E} (hs : s.Sound)
    (hg : ∀ f, f.Sound s → (g f).Sound s) (h : s.answer i g = some s') : s'.Sound := by
  obtain ⟨f, hf, -, rfl⟩ := answer_eq_some h
  refine ⟨hs.metrics, hs.events, ?_⟩
  intro f' hf'
  rcases List.mem_or_eq_of_mem_set hf' with hf' | rfl
  · exact ⟨(hs.flushes f' hf').metrics, (hs.flushes f' hf').events⟩
  · have hsound := hg f (hs.flushes f (List.mem_of_getElem? hf))
    exact ⟨hsound.metrics, hsound.events⟩

theorem sound_export {b : Buffer M E} (hs : s.Sound) (hm : Numbered b.metrics (s.next + 1))
    (he : Numbered b.events (s.next + 1)) (hmnew : ∀ m ∈ b.metrics, m ∈ s.buffer.metrics ∨ s.next ≤ m.id)
    (henew : ∀ e ∈ b.events, e ∈ s.buffer.events ∨ s.next ≤ e.id) :
    ({ s with buffer := b, next := s.next + 1 } : Exporter M E).Sound :=
  ⟨hm, he, fun f hf => ⟨(hs.flushes f hf).metrics.mono (Nat.le_succ _) hmnew,
    (hs.flushes f hf).events.mono (Nat.le_succ _) henew⟩⟩

theorem mem_push {α : Type} {xs ys : List (Record α)} {n : ℕ} {value : α}
    (h : ys <:+ xs ++ [⟨n, value⟩]) {y : Record α} (hy : y ∈ ys) : y ∈ xs ∨ n ≤ y.id := by
  rcases List.mem_append.mp (h.subset hy) with hy | hy
  · exact .inl hy
  · obtain rfl := List.mem_singleton.mp hy
    exact .inr le_rfl

theorem sound_step (hs : s.Sound) (h : s.step cfg a = some s') : s'.Sound := by
  cases a with
  | exportMetric value =>
    have ht := trimmed_trim cfg.maxSize
      { s.buffer with metrics := s.buffer.metrics ++ [⟨s.next, value⟩] }
    obtain rfl := Option.some.inj h
    exact sound_export hs ((hs.metrics.push value).suffix ht.metrics)
      ((hs.events.mono (Nat.le_succ _)).suffix ht.events) (fun m hm => mem_push ht.metrics hm)
      fun e he => .inl (ht.events.subset he)
  | exportEvent value =>
    have ht := trimmed_trim cfg.maxSize
      { s.buffer with events := s.buffer.events ++ [⟨s.next, value⟩] }
    obtain rfl := Option.some.inj h
    exact sound_export hs ((hs.metrics.mono (Nat.le_succ _)).suffix ht.metrics)
      ((hs.events.push value).suffix ht.events) (fun m hm => .inl (ht.metrics.subset hm))
      fun e he => mem_push ht.events he
  | flush =>
    have hold : ∀ f ∈ s.flushes, f.Sound { s with buffer := {} } := fun f hf =>
      ⟨(hs.flushes f hf).metrics.mono le_rfl fun _ hy => absurd hy List.not_mem_nil,
        (hs.flushes f hf).events.mono le_rfl fun _ hy => absurd hy List.not_mem_nil⟩
    simp only [Exporter.step] at h
    split at h
    · obtain rfl := Option.some.inj h
      refine ⟨Numbered.nil, Numbered.nil, fun f hf => ?_⟩
      rcases List.mem_append.mp hf with hf | hf
      · exact ⟨(hold f hf).metrics, (hold f hf).events⟩
      · obtain rfl := List.mem_singleton.mp hf
        exact ⟨.start hs.metrics, .start hs.events⟩
    · obtain rfl := Option.some.inj h
      exact ⟨Numbered.nil, Numbered.nil, hold⟩
  | sinkAccepts i => exact sound_answer hs (fun f hf => hf.accepted) h
  | sinkRejects i =>
    exact sound_answer (g := Flush.rejected) hs (fun f hf => ⟨hf.metrics, hf.events⟩) h

theorem run_concat (as : List (ExporterAction M E)) (a : ExporterAction M E) :
    Exporter.run cfg (as ++ [a]) = (Exporter.run cfg as).bind fun s => s.step cfg a := by
  simp [Exporter.run, List.foldlM_append]

theorem run_induction {P : List (ExporterAction M E) → Exporter M E → Prop} (hinit : P [] {})
    (hstep : ∀ as a s s', Exporter.run cfg as = some s → P as s → s.step cfg a = some s' →
      P (as ++ [a]) s')
    {as : List (ExporterAction M E)} (h : Exporter.run cfg as = some s) : P as s := by
  induction as using List.reverseRecOn generalizing s with
  | nil =>
    obtain rfl : {} = s := Option.some.inj h
    exact hinit
  | append_singleton as a ih =>
    rw [run_concat] at h
    obtain ⟨t, ht, hs⟩ := Option.bind_eq_some_iff.mp h
    exact hstep as a t s ht (ih ht) hs

theorem sound_run {as : List (ExporterAction M E)} (h : Exporter.run cfg as = some s) : s.Sound :=
  run_induction (P := fun _ s => s.Sound) sound_init (fun _ _ _ _ _ hs h => sound_step hs h) h

theorem delivered_iff {as : List (ExporterAction M E)} (h : Exporter.run cfg as = some s)
    {f : Flush M E} (hf : f ∈ s.flushes) : Delivered f s.buffer ↔ f.left = {} := by
  have hsound := (sound_run h).flushes f hf
  rw [Delivered, hsound.metrics.reached_iff, hsound.events.reached_iff]
  obtain ⟨ms, es⟩ := f.left
  simp

/-! ### What is retained -/

/-- The lists of the buffer are the last of the records exported since the last flush. -/
structure Retains (as : List (ExporterAction M E)) (b : Buffer M E) : Prop where
  metrics : b.metrics.map Record.value <:+ metricsSince as
  events : b.events.map Record.value <:+ eventsSince as

theorem suffix_push {α : Type} {xs ys : List (Record α)} {vs : List α} {n : ℕ} {value : α}
    (hx : xs.map Record.value <:+ vs) (hy : ys <:+ xs ++ [⟨n, value⟩]) :
    ys.map Record.value <:+ vs ++ [value] := by
  refine (hy.map Record.value).trans ?_
  rw [List.map_append]
  exact List.suffix_append_self_iff.mpr hx

theorem metricsSince_concat (as : List (ExporterAction M E)) (a : ExporterAction M E) :
    metricsSince (as ++ [a]) = metricsAfter (metricsSince as) a := by
  rw [metricsSince, List.foldl_append]
  rfl

theorem eventsSince_concat (as : List (ExporterAction M E)) (a : ExporterAction M E) :
    eventsSince (as ++ [a]) = eventsAfter (eventsSince as) a := by
  rw [eventsSince, List.foldl_append]
  rfl

theorem buffer_answer {i : ℕ} {g : Flush M E → Flush M E} (h : s.answer i g = some s') :
    s'.buffer = s.buffer := by
  obtain ⟨f, -, -, rfl⟩ := answer_eq_some h
  rfl

theorem buffer_flush (h : s.step cfg .flush = some s') : s'.buffer = {} := by
  simp only [Exporter.step] at h
  split at h
  · obtain rfl := Option.some.inj h
    rfl
  · obtain rfl := Option.some.inj h
    rfl

theorem retains_step {as : List (ExporterAction M E)} (hr : Retains as s.buffer)
    (h : s.step cfg a = some s') : Retains (as ++ [a]) s'.buffer := by
  cases a with
  | exportMetric value =>
    have ht := trimmed_trim cfg.maxSize
      { s.buffer with metrics := s.buffer.metrics ++ [⟨s.next, value⟩] }
    obtain rfl := Option.some.inj h
    constructor
    · rw [metricsSince_concat]
      exact suffix_push hr.metrics ht.metrics
    · rw [eventsSince_concat]
      exact (ht.events.map Record.value).trans hr.events
  | exportEvent value =>
    have ht := trimmed_trim cfg.maxSize
      { s.buffer with events := s.buffer.events ++ [⟨s.next, value⟩] }
    obtain rfl := Option.some.inj h
    constructor
    · rw [metricsSince_concat]
      exact (ht.metrics.map Record.value).trans hr.metrics
    · rw [eventsSince_concat]
      exact suffix_push hr.events ht.events
  | flush =>
    rw [buffer_flush h]
    exact ⟨List.nil_suffix, List.nil_suffix⟩
  | sinkAccepts i =>
    rw [buffer_answer h]
    exact ⟨metricsSince_concat as _ ▸ hr.metrics, eventsSince_concat as _ ▸ hr.events⟩
  | sinkRejects i =>
    rw [buffer_answer h]
    exact ⟨metricsSince_concat as _ ▸ hr.metrics, eventsSince_concat as _ ▸ hr.events⟩

theorem keepsEvents_step (h : s.step cfg a = some s') : KeepsEvents s s' a := by
  cases a with
  | exportMetric value =>
    obtain rfl := Option.some.inj h
    exact (trimmed_trim cfg.maxSize _).dropped
  | exportEvent value =>
    obtain rfl := Option.some.inj h
    exact (trimmed_trim cfg.maxSize _).dropped
  | flush => trivial
  | sinkAccepts i => trivial
  | sinkRejects i => trivial

def WholeBound : JsNumber → Prop
  | .finite max => ∃ n : ℕ, max = n
  | .infinity negative => negative = false
  | .nan => False

theorem withinBound_trim {maxSize : JsNumber} (hw : WholeBound maxSize) (b : Buffer M E) :
    WithinBound (trim maxSize b).size maxSize := by
  cases maxSize with
  | nan => exact hw.elim
  | infinity negative => exact hw
  | finite max =>
    obtain ⟨n, rfl⟩ := hw
    exact Nat.cast_le.mpr (size_trim n b)

theorem withinBound_empty {maxSize : JsNumber} (hw : WholeBound maxSize) :
    WithinBound ({} : Buffer M E).size maxSize := by
  cases maxSize with
  | nan => exact hw.elim
  | infinity negative => exact hw
  | finite max =>
    obtain ⟨n, rfl⟩ := hw
    exact Nat.cast_le.mpr (Nat.zero_le n)

theorem withinBound_step (hw : WholeBound cfg.maxSize)
    (hs : WithinBound s.buffer.size cfg.maxSize) (h : s.step cfg a = some s') :
    WithinBound s'.buffer.size cfg.maxSize := by
  cases a with
  | exportMetric value =>
    obtain rfl := Option.some.inj h
    exact withinBound_trim hw _
  | exportEvent value =>
    obtain rfl := Option.some.inj h
    exact withinBound_trim hw _
  | flush =>
    rw [buffer_flush h]
    exact withinBound_empty hw
  | sinkAccepts i => exact buffer_answer h ▸ hs
  | sinkRejects i => exact buffer_answer h ▸ hs

/-! ### What flushes deliver -/

def Exporter.Settled (s : Exporter M E) : Prop :=
  ∀ f ∈ s.flushes, f.ended = true → f.left = {}

theorem accepted_settled {f : Flush M E} (hf : f.ended = false) (h : f.accepted.ended = true) :
    f.accepted.left = {} := by
  obtain ⟨taken, sent, ⟨ms, es⟩, ended⟩ := f
  cases ms with
  | cons m ms => exact absurd (hf.symm.trans h) Bool.false_ne_true
  | nil =>
    cases es with
    | cons e es => exact absurd (hf.symm.trans h) Bool.false_ne_true
    | nil => rfl

theorem settled_answer {i : ℕ} {g : Flush M E → Flush M E} (hs : s.Settled)
    (hg : ∀ f, s.flushes[i]? = some f → f.ended = false → (g f).ended = true → (g f).left = {})
    (h : s.answer i g = some s') : s'.Settled := by
  obtain ⟨f, hf, hended, rfl⟩ := answer_eq_some h
  intro f' hf' hend
  rcases List.mem_or_eq_of_mem_set hf' with hf' | rfl
  · exact hs f' hf' hend
  · exact hg f hf hended hend

theorem settled_step (hs : s.Settled) (hok : ¬ RejectsRecord s a) (h : s.step cfg a = some s') :
    s'.Settled := by
  cases a with
  | exportMetric value =>
    obtain rfl := Option.some.inj h
    exact hs
  | exportEvent value =>
    obtain rfl := Option.some.inj h
    exact hs
  | flush =>
    simp only [Exporter.step] at h
    split at h
    · obtain rfl := Option.some.inj h
      intro f hf hend
      rcases List.mem_append.mp hf with hf | hf
      · exact hs f hf hend
      · obtain rfl := List.mem_singleton.mp hf
        exact absurd hend Bool.false_ne_true
    · obtain rfl := Option.some.inj h
      exact hs
  | sinkAccepts i => exact settled_answer hs (fun f _ hf => accepted_settled hf) h
  | sinkRejects i =>
    refine settled_answer (g := Flush.rejected) hs (fun f hf _ _ => ?_) h
    exact not_not.mp fun hleft => hok ⟨f, hf, hleft⟩

/-- What the buffer keeps and what the flushes deliver, in a state that a run has reached. -/
structure KeepsRecords (cfg : ExporterConfig) (as : List (ExporterAction M E)) (s : Exporter M E) :
    Prop where
  bounded : WithinBound s.buffer.size cfg.maxSize
  retains : Retains as s.buffer
  events : ∀ a s', s.step cfg a = some s' → KeepsEvents s s' a
  delivers : ∀ f ∈ s.flushes, f.ended = true → Delivered f s.buffer

/-- With a bound of whole records, a run in which the sink rejects no record keeps all of it in every
state that it reaches. -/
theorem keepsRecords_run (hw : WholeBound cfg.maxSize) {as : List (ExporterAction M E)}
    (hok : ∀ pre a post t, as = pre ++ a :: post → Exporter.run cfg pre = some t →
      ¬ RejectsRecord t a)
    (h : Exporter.run cfg as = some s) : KeepsRecords cfg as s := by
  have hsettled : (∀ pre a post t, as = pre ++ a :: post → Exporter.run cfg pre = some t →
      ¬ RejectsRecord t a) → s.Settled :=
    run_induction (P := fun as s => (∀ pre a post t, as = pre ++ a :: post →
        Exporter.run cfg pre = some t → ¬ RejectsRecord t a) → s.Settled)
      (fun _ _ hf => absurd hf List.not_mem_nil)
      (fun as a s s' hrun ih hstep hok => settled_step
        (ih fun pre b post t hpre => hok pre b (post ++ [a]) t (by rw [hpre]; simp))
        (hok as a [] s rfl hrun) hstep) h
  constructor
  case bounded =>
    exact run_induction (P := fun _ s => WithinBound s.buffer.size cfg.maxSize)
      (withinBound_empty hw) (fun _ _ _ _ _ hs h => withinBound_step hw hs h) h
  case retains =>
    exact run_induction (P := fun as s => Retains as s.buffer) ⟨List.nil_suffix, List.nil_suffix⟩
      (fun _ _ _ _ _ hs h => retains_step hs h) h
  case events => exact fun _ _ h => keepsEvents_step h
  case delivers => exact fun f hf hend => (delivered_iff h hf).mpr (hsettled hok f hf hend)

/-- Three metrics in a buffer of two, a flush, and another metric before the sink has answered. -/
def acceptedRun : List (ExporterAction String String) :=
  [.exportMetric "a", .exportMetric "b", .exportMetric "c", .flush, .exportMetric "d", .sinkAccepts 0,
    .sinkAccepts 0, .sinkAccepts 0]

def acceptedEnd : Exporter String String where
  buffer := { metrics := [⟨3, "d"⟩] }
  next := 4
  flushes :=
    [{ taken := { metrics := [⟨1, "b"⟩, ⟨2, "c"⟩] }, sent := { metrics := [⟨1, "b"⟩, ⟨2, "c"⟩] },
       left := {}, ended := true }]

theorem acceptedRun_keeps : KeepsRecords { maxSize := .finite 2 } acceptedRun acceptedEnd := by
  have hw : WholeBound (.finite 2) := ⟨2, by norm_num⟩
  refine keepsRecords_run hw ?_ (by decide +kernel)
  intro pre a post t h _ hrejects
  have ha : a ∈ acceptedRun := h ▸ List.mem_append_right pre (List.mem_cons_self ..)
  cases a with
  | sinkRejects i => simp [acceptedRun] at ha
  | _ => exact hrejects

/-- A flush whose only metric the sink rejected. -/
def rejectedFlush : Flush String String where
  taken := { metrics := [⟨0, "a"⟩] }
  left := { metrics := [⟨0, "a"⟩] }
  ended := true

/-- The metric is gone. -/
theorem rejected_lost :
    Exporter.run { maxSize := .finite 2 } [.exportMetric "a", .flush, .sinkRejects 0] =
        some { next := 1, flushes := [rejectedFlush] } ∧
      rejectedFlush.ended = true ∧ ¬ Delivered rejectedFlush {} := by
  refine ⟨by decide +kernel, rfl, ?_⟩
  rintro ⟨h, -⟩
  rcases h ⟨0, "a"⟩ (List.mem_singleton_self _) with h | h
  · exact absurd h List.not_mem_nil
  · exact absurd h List.not_mem_nil

end ElectronicsCart.Metrics
