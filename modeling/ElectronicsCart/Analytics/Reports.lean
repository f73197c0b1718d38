import ElectronicsCart.Analytics.Spreadsheet
import ElectronicsCart.Core.Exclusion
import ElectronicsCart.Lib.Callers
import ElectronicsCart.Lib.Table

/-!
# Report exports

`ReportService.enqueueGenerate` and `processExport` of `modules/analytics/services/report.service.ts`.
A job renders its rows, stores the object, records it in `media_files` and marks the export completed,
each in a call of its own; the queue may hand out a job that was put into it more than once.

The rows that a report reads come with the reply, and so does the job id of the queue.  Storage, queue
and database are one state here, with the lock of an export for its jobs.
-/

namespace ElectronicsCart.Analytics

open Interleaving Relational

/-! ### State and calls -/

inductive ReportExportFormat where
  | csv | pdf | xlsx
deriving DecidableEq, Repr

inductive ReportExportStatus where
  | queued | processing | completed | failed
deriving DecidableEq, Repr

structure SavedReport where
  id : ℕ
  code : String
  reportType : String
  /-- `query_json.domain` -/
  domain : Option String := none
  deleted : Bool := false
deriving DecidableEq, Repr

structure ReportExport where
  id : ℕ
  savedReportId : Option ℕ
  exportFormat : ReportExportFormat
  exportStatus : ReportExportStatus := .queued
  mediaFileId : Option ℕ := none
  rowCount : Option ℕ := none
  errorMessage : Option String := none
  requestedBy : Option ℕ
  completedAt : Option ℕ := none
deriving DecidableEq, Repr

structure MediaFile where
  id : ℕ
  bucket : String
  objectKey : Text
  mimeType : String
  byteSize : ℕ
  originalName : Text
  createdBy : Option ℕ
  deleted : Bool := false
deriving DecidableEq, Repr

structure StoredObject where
  body : Text
  contentType : String
deriving DecidableEq, Repr

structure ExportJob where
  exportId : ℕ
  savedReportId : Option ℕ
  format : ReportExportFormat
  actorId : Option ℕ
deriving DecidableEq, Repr

inductive AnalyticsEvent where
  | exportCompleted (exportId : ℕ) (format : ReportExportFormat) (status : ReportExportStatus)
  | reportGenerated (reportId exportId : ℕ)
deriving DecidableEq, Repr

instance : Keyed SavedReport := ⟨SavedReport.id⟩
instance : Keyed ReportExport := ⟨ReportExport.id⟩
instance : Keyed MediaFile := ⟨MediaFile.id⟩

structure ReportDesk where
  savedReports : Table SavedReport := .empty
  exports : Table ReportExport := .empty
  mediaFiles : Table MediaFile := .empty
  objects : Text → Option StoredObject := fun _ => none
  jobs : List ExportJob := []
  audits : List (ℕ × Option ℕ) := []
  published : List AnalyticsEvent := []
  users : List ℕ := []
  locks : LockStore ℕ := fun _ => none

inductive DataSource where
  | kpis (period : String)
  | funnels | cohorts | ltv | rfm
  | trends (domain : String)
  | auditLogs
deriving DecidableEq, Repr

/-- One of the `unknown[]`: an object, or something else. -/
inductive Datum where
  | record (row : Row)
  | other (v : Value)

inductive ReportCall where
  | acquire (exportId token : ℕ)
  | release (exportId token : ℕ)
  | deliver (k : ℕ)
  | findSaved (id : ℕ)
  | read (source : DataSource)
  | createExport
  | enqueue (exportId : ℕ)
  | markProcessing (exportId : ℕ)
  | put (objectKey : Text)
  | createMedia (objectKey : Text)
  | markCompleted (exportId : ℕ)
  | publish (event : AnalyticsEvent)
  | audit (exportId : ℕ)
  | markFailed (exportId : ℕ)
deriving DecidableEq, Repr

instance : Lockable ReportCall ReportDesk ℕ where
  locks := ReportDesk.locks
  setLocks m d := { d with locks := m }
  acquireCall := .acquire
  releaseCall := .release
  resource exportId := ["analytics", "export", toString exportId]
  locks_setLocks _ _ := rfl

abbrev ReportProg := Prog ReportCall (Input (List Datum)) ReportDesk Failure

/-- `storage.bucket`, and `toISOString`. -/
structure ReportConfig where
  bucket : Option String := none
  toISOString : ℕ → Text

/-! ### Data and files -/

def reportNotFound : Failure := .throwApp .notFound "Saved report not found" 404

def sourceOf (report : SavedReport) : DataSource :=
  if report.reportType = "funnel" then .funnels
  else if report.reportType = "cohort" then .cohorts
  else if report.reportType = "ltv" then .ltv
  else if report.reportType = "rfm" then .rfm
  else if report.reportType = "trends" then .trends (report.domain.getD "sales")
  else if report.reportType = "kpi" then .kpis "daily"
  else if report.reportType = "audit" then .auditLogs
  else .trends (report.domain.getD report.reportType)

def readSource (source : DataSource) : ReportProg (List Datum × ℕ) :=
  query (.read source) fun i _ => (i.reply, i.now)

def resolveReportData : Option ℕ → ReportProg (List Datum × ℕ)
  | none => readSource (.kpis "daily")
  | some id => do
    let found ← query (.findSaved id) fun _ d => (d.savedReports.find? id).filter fun r => !r.deleted
    let report ← Prog.orThrow reportNotFound found
    readSource (sourceOf report)

/-- `{ value: r }` -/
def valueRow (v : Value) : Row := ⟨[("value".toList, v)], List.nodup_singleton _⟩

def flattenRows (data : List Datum) : List Row :=
  data.map fun
    | .record row => row
    | .other v => valueRow v

def rowsToPdfText (cfg : ReportConfig) (now : ℕ) (rows : List Row) : Text :=
  ['\n'].intercalate ["Electronics Cart Analytics Export".toList,
    "Generated: ".toList ++ cfg.toISOString now, [], rowsToCsv rows]

def render (cfg : ReportConfig) (format : ReportExportFormat) (data : List Datum) (now : ℕ) : Text :=
  match format with
  | .csv => rowsToCsv (flattenRows data)
  | .xlsx => rowsToXlsxXml (flattenRows data)
  | .pdf => rowsToPdfText cfg now (flattenRows data)

def mimeOf : ReportExportFormat → String
  | .csv => "text/csv"
  | .xlsx => "application/vnd.openxmlformats-officedocument.spreadsheetml.sheet"
  | .pdf => "application/pdf"

def extensionOf : ReportExportFormat → Text
  | .xlsx => ['x', 'm', 'l']
  | .pdf => ['t', 'x', 't']
  | .csv => ['c', 's', 'v']

def objectKey (exportId : ℕ) (format : ReportExportFormat) : Text :=
  "analytics/exports/".toList ++ (Nat.toDigits 10 exportId ++ '.' :: extensionOf format)

def nameOf : ReportExportFormat → Text
  | .csv => ['c', 's', 'v']
  | .pdf => ['p', 'd', 'f']
  | .xlsx => ['x', 'l', 's', 'x']

/-- `Buffer.byteLength` -/
def byteLength (body : Text) : ℕ := (body.map Char.utf8Size).sum

/-! ### `processExport` -/

section Service

variable (cfg : ReportConfig)

def updateExport (id : ℕ) (g : ReportExport → ReportExport) (hg : ∀ e, key (g e) = key e)
    (d : ReportDesk) : Except Failure (Unit × ReportDesk) := do
  check (d.exports.find? id).isSome "P2025"
  return ((), { d with exports := d.exports.update id g hg })

def processing (e : ReportExport) : ReportExport := { e with exportStatus := .processing }

def failedWith (message : String) (e : ReportExport) : ReportExport :=
  { e with exportStatus := .failed, errorMessage := some message }

def completedWith (mediaFileId rowCount now : ℕ) (e : ReportExport) : ReportExport :=
  { e with
    exportStatus := .completed
    mediaFileId := some mediaFileId
    rowCount := some rowCount
    completedAt := some now }

theorem key_processing (e : ReportExport) : key (processing e) = key e := rfl

theorem key_failedWith (message : String) (e : ReportExport) : key (failedWith message e) = key e := rfl

theorem key_completedWith (mediaFileId rowCount now : ℕ) (e : ReportExport) :
    key (completedWith mediaFileId rowCount now e) = key e := rfl

def newMedia (job : ExportJob) (body : Text) (n : ℕ) : MediaFile where
  id := n
  bucket := cfg.bucket.getD "local"
  objectKey := objectKey job.exportId job.format
  mimeType := mimeOf job.format
  byteSize := byteLength body
  originalName := "export-".toList ++ (Nat.toDigits 10 job.exportId ++ '.' :: nameOf job.format)
  createdBy := job.actorId

theorem key_newMedia (job : ExportJob) (body : Text) (n : ℕ) : key (newMedia cfg job body n) = n := rfl

/-- The unique index counts live rows. -/
def keyTaken (bucket : String) (objectKey : Text) (d : ReportDesk) : Bool :=
  d.mediaFiles.rows.any fun f => !f.deleted && f.bucket == bucket && f.objectKey == objectKey

def createMedia (job : ExportJob) (body : Text) (d : ReportDesk) :
    Except Failure (ℕ × ReportDesk) := do
  check (!keyTaken (cfg.bucket.getD "local") (objectKey job.exportId job.format) d)
    "uq_media_files_bucket_key_active"
  check ((cfg.bucket.getD "local").length ≤ 120) "P2000"
  check (job.actorId.all d.users.contains) "media_files_created_by_fkey"
  return (d.mediaFiles.next, { d with
    mediaFiles := d.mediaFiles.insert (newMedia cfg job body) (key_newMedia cfg job body) })

def putObject (objectKey : Text) (object : StoredObject) : ReportProg Unit :=
  atomic (.put objectKey) fun _ d =>
    .ok ((), { d with objects := Function.update d.objects objectKey (some object) })

/-- An event that is published without waiting. -/
def publishEvent (event : AnalyticsEvent) : ReportProg Unit :=
  Prog.call (.publish event) fun _ d => (.ok (), { d with published := d.published ++ [event] })

def publishGenerated (job : ExportJob) : ReportProg Unit :=
  match job.savedReportId with
  | some id => publishEvent (.reportGenerated id job.exportId)
  | none => pure ()

def auditExport (job : ExportJob) : ReportProg Unit :=
  atomic (.audit job.exportId) fun _ d => do
    check (job.actorId.all d.users.contains) "audit_logs_performed_by_fkey"
    return ((), { d with audits := d.audits ++ [(job.exportId, job.actorId)] })

/-- From `mediaFile.create` on. -/
def fileExport (job : ExportJob) (data : List Datum) (body : Text) : ReportProg Unit := do
  let mediaId ← atomic (.createMedia (objectKey job.exportId job.format)) fun _ d => createMedia cfg job body d
  atomic (.markCompleted job.exportId) fun i d =>
    updateExport job.exportId (completedWith mediaId data.length i.now)
      (key_completedWith mediaId data.length i.now) d
  publishEvent (.exportCompleted job.exportId job.format .completed)
  publishGenerated job
  auditExport job

def produceExport (job : ExportJob) : ReportProg Unit := do
  let (data, now) ← resolveReportData job.savedReportId
  let body := render cfg job.format data now
  putObject (objectKey job.exportId job.format) ⟨body, mimeOf job.format⟩
  fileExport cfg job data body

def recordFailure (job : ExportJob) (e : Failure) : ReportProg Unit := do
  atomic (.markFailed job.exportId) fun _ d =>
    updateExport job.exportId (failedWith e.message) (key_failedWith e.message) d
  publishEvent (.exportCompleted job.exportId job.format .failed)
  throw e

inductive ReportResponse where
  | inline (data : List Datum)
  | queued (exportId : ℕ) (format : ReportExportFormat)
  | completed (exportId : ℕ)
  | idle

def processExport (token : ℕ) (job : ExportJob) : ReportProg ReportResponse :=
  LockService.withLock job.exportId token do
    atomic (.markProcessing job.exportId) fun _ d =>
      updateExport job.exportId processing key_processing d
    tryCatch (produceExport cfg job) fun e => recordFailure job e
    pure (.completed job.exportId)

/-! ### `enqueueGenerate` -/

/-- `none` is the format `json`. -/
structure GenerateInput where
  savedReportId : Option ℕ := none
  format : Option ReportExportFormat := some .csv
deriving DecidableEq, Repr

def newExport (actorId savedReportId : Option ℕ) (format : ReportExportFormat) (n : ℕ) : ReportExport where
  id := n
  savedReportId := savedReportId
  exportFormat := format
  requestedBy := actorId

theorem key_newExport (actorId savedReportId : Option ℕ) (format : ReportExportFormat) (n : ℕ) :
    key (newExport actorId savedReportId format n) = n := rfl

def createExport (actorId savedReportId : Option ℕ) (format : ReportExportFormat) (d : ReportDesk) :
    Except Failure (ℕ × ReportDesk) := do
  check (savedReportId.all fun id => (d.savedReports.find? id).isSome) "report_exports_saved_report_id_fkey"
  check (actorId.all d.users.contains) "report_exports_requested_by_fkey"
  return (d.exports.next, { d with
    exports := d.exports.insert (newExport actorId savedReportId format)
      (key_newExport actorId savedReportId format) })

def enqueueExport (actorId savedReportId : Option ℕ) (format : ReportExportFormat) :
    ReportProg ReportResponse := do
  let id ← atomic .createExport fun _ d => createExport actorId savedReportId format d
  atomic (.enqueue id) fun _ d => .ok ((), { d with jobs := d.jobs ++ [⟨id, savedReportId, format, actorId⟩] })
  pure (.queued id format)

def enqueueGenerate (actorId : Option ℕ) (input : GenerateInput) : ReportProg ReportResponse :=
  match input.format with
  | some format => enqueueExport actorId input.savedReportId format
  | none => do
    let (data, _) ← resolveReportData input.savedReportId
    pure (.inline data)

/-- The delivery of a job: any one that was put into the queue, also one that was handed out before. -/
def deliverExport (token k : ℕ) : ReportProg ReportResponse := do
  let found ← query (.deliver k) fun _ d => d.jobs[k]?
  match found with
  | some job => processExport cfg token job
  | none => pure .idle

/-- A request of an administrator, or the delivery of the `k`-th job. -/
inductive ReportRequest where
  | generate (actorId : Option ℕ) (input : GenerateInput)
  | deliver (k : ℕ)
deriving DecidableEq, Repr

def ReportRequest.prog (token : ℕ) : ReportRequest → ReportProg ReportResponse
  | .generate actorId input => enqueueGenerate actorId input
  | .deliver k => deliverExport cfg token k

/-- All of them at once; a job locks with a token of its own. -/
def reportPool (requests : List ReportRequest) (d : ReportDesk) :
    Pool ReportCall (Input (List Datum)) ReportDesk Failure ReportResponse :=
  ⟨requests.mapIdx (ReportRequest.prog cfg), d⟩

end Service

/-! ### Keys of objects -/

theorem objectKey_inj {id id' : ℕ} {format format' : ReportExportFormat} :
    objectKey id format = objectKey id' format' ↔ id = id' ∧ format = format' := by
  refine ⟨fun h => ?_, fun h => by rw [h.1, h.2]⟩
  have hno : ∀ n, '.' ∉ Nat.toDigits 10 n := fun n hmem => by
    have hdigit := Nat.isDigit_of_mem_toDigits (by decide) (by decide) hmem
    exact absurd hdigit (by decide)
  have hext : ∀ format, '.' ∉ extensionOf format := fun format => by cases format <;> decide
  obtain ⟨hid, -, hformat⟩ := (List.append_cons_inj_of_notMem (hno _) (hext _)).mp (List.append_cancel_left h)
  have hids := congrArg (Nat.ofDigitChars 10 · 0) hid
  refine ⟨by simpa using hids, ?_⟩
  cases format <;> cases format' <;> first | rfl | exact absurd hformat (by decide)

/-! ### What is filed -/

/-- The file of a completed export: the object that is stored under its key is the rendering, in the
format of the export, of as many rows as the export says, and the file has its size and type. -/
def FiledExport (cfg : ReportConfig) (e : ReportExport) (d : ReportDesk) : Prop :=
  ∃ f ∈ d.mediaFiles.rows, ∃ data now, e.mediaFileId = some f.id ∧ f.deleted = false ∧
    f.objectKey = objectKey e.id e.exportFormat ∧
    d.objects f.objectKey = some ⟨render cfg e.exportFormat data now, f.mimeType⟩ ∧
    f.mimeType = mimeOf e.exportFormat ∧
    f.byteSize = byteLength (render cfg e.exportFormat data now) ∧ e.rowCount = some data.length

def Filed (cfg : ReportConfig) (d : ReportDesk) : Prop :=
  ∀ e ∈ d.exports.rows, e.exportStatus = .completed → FiledExport cfg e d

def OfFormat (id : ℕ) (format : ReportExportFormat) (d : ReportDesk) : Prop :=
  ∃ e ∈ d.exports.rows, e.id = id ∧ e.exportFormat = format

def JobsFit (d : ReportDesk) : Prop := ∀ job ∈ d.jobs, OfFormat job.exportId job.format d

structure Sound (cfg : ReportConfig) (d : ReportDesk) : Prop where
  filed : Filed cfg d
  jobsFit : JobsFit d

def isProcessing (id : ℕ) (d : ReportDesk) : Bool :=
  (d.exports.find? id).any fun e => e.exportStatus == .processing

/-- The lock of an export guards that it is in processing, and its objects; files and formats stay. -/
def reportProtection :
    Protection ReportCall ReportDesk ℕ (Bool × (ReportExportFormat → Option StoredObject)) where
  view id d := (isProcessing id d, fun format => d.objects (objectKey id format))
  frame d d' := (∀ f ∈ d.mediaFiles.rows, f ∈ d'.mediaFiles.rows) ∧
    ∀ id format, OfFormat id format d → OfFormat id format d'
  refl _ := ⟨fun _ hf => hf, fun _ _ h => h⟩
  trans h h' := ⟨fun f hf => h'.1 f (h.1 f hf), fun id format hf => h'.2 id format (h.2 id format hf)⟩
  view_setLocks _ _ _ := rfl
  frame_setLocks _ _ := ⟨fun _ hf => hf, fun _ _ h => h⟩

def reportWorld (cfg : ReportConfig) : World ReportCall (Input (List Datum)) ReportDesk where
  ok _ _ _ := True
  inv := Sound cfg

variable {cfg : ReportConfig} {d d' u : ReportDesk} {token : ℕ} {job : ExportJob} {l : ReportCall}
  {i : Input (List Datum)} {e : ReportExport} {f : MediaFile} {s : ReportDesk}

abbrev reportDiscipline (token : ℕ) : Discipline ReportCall (Input (List Datum)) ReportDesk :=
  reportProtection.discipline token

def Working (token id : ℕ) (d : ReportDesk) : Prop :=
  d.locks id = some token ∧ isProcessing id d = true

theorem Working.stable {id : ℕ} (h : Working token id d) (hd : (reportDiscipline token).rely d d') :
    Working token id d' := by
  obtain ⟨hheld, hview⟩ := hd.2 id h.1
  exact ⟨hheld, (congrArg Prod.fst hview).trans h.2⟩

theorem object_stable {id : ℕ} (h : d.locks id = some token) (hd : (reportDiscipline token).rely d d')
    (format : ReportExportFormat) : d'.objects (objectKey id format) = d.objects (objectKey id format) :=
  congrFun (congrArg Prod.snd (hd.2 id h).2) format

/-! ### One call -/

theorem ofFormat_of_eq (he : d'.exports = d.exports) {id : ℕ} {format : ReportExportFormat}
    (h : OfFormat id format d) : OfFormat id format d' := by
  rw [OfFormat, he]
  exact h

theorem jobsFit_of_eq (h : JobsFit d) (he : d'.exports = d.exports) (hj : d'.jobs = d.jobs) : JobsFit d' := by
  intro job hjob
  rw [hj] at hjob
  exact ofFormat_of_eq he (h job hjob)

theorem sound_of_eq (h : Sound cfg d) (he : d'.exports = d.exports) (hm : d'.mediaFiles = d.mediaFiles)
    (ho : d'.objects = d.objects) (hj : d'.jobs = d.jobs) : Sound cfg d' := by
  refine ⟨?_, jobsFit_of_eq h.jobsFit he hj⟩
  intro e hmem hstatus
  rw [he] at hmem
  obtain ⟨f, hf, hfile⟩ := h.filed e hmem hstatus
  refine ⟨f, hm ▸ hf, ?_⟩
  rw [ho]
  exact hfile

theorem guar_of_eq (he : d'.exports = d.exports) (hm : d'.mediaFiles = d.mediaFiles)
    (ho : d'.objects = d.objects) (hl : d'.locks = d.locks) : (reportDiscipline token).guar l i d d' := by
  refine ⟨⟨?_, fun id format h => ofFormat_of_eq he h⟩, fun other _ key hkey => ⟨?_, ?_⟩⟩
  · intro f hf
    rw [hm]
    exact hf
  · exact (congrFun hl key).trans hkey
  · change (isProcessing key d', fun format => d'.objects (objectKey key format)) = _
    rw [isProcessing, he, ho]
    rfl

theorem updateExport_cases {id : ℕ} {g : ReportExport → ReportExport} {hg : ∀ e, key (g e) = key e}
    (h : updateExport id g hg d = .ok ((), u)) :
    (∃ e, d.exports.find? id = some e) ∧ u = { d with exports := d.exports.update id g hg } := by
  simp only [updateExport, bind_eq_ok, check_eq_ok, pure_eq_ok, Prod.mk.injEq, exists_const, true_and] at h
  exact ⟨Option.isSome_iff_exists.mp h.1, h.2.symm⟩

theorem ofFormat_update {id id' : ℕ} {format : ReportExportFormat} {g : ReportExport → ReportExport}
    {hg : ∀ e, key (g e) = key e} (hformat : ∀ e, (g e).exportFormat = e.exportFormat)
    (h : OfFormat id' format d) : OfFormat id' format { d with exports := d.exports.update id g hg } := by
  obtain ⟨e, he, hid, hf⟩ := h
  refine ⟨_, (Table.mem_update hg).mpr ⟨e, he, rfl⟩, ?_, ?_⟩
  · split
    · exact (hg e).trans hid
    · exact hid
  · split
    · exact (hformat e).trans hf
    · exact hf

theorem ofFormat_completed {id : ℕ} {format : ReportExportFormat} (mediaFileId rowCount now : ℕ)
    (h : OfFormat id format d) : OfFormat id format { d with
      exports := d.exports.update id (completedWith mediaFileId rowCount now)
        (key_completedWith mediaFileId rowCount now) } :=
  ofFormat_update (fun _ => rfl) h

theorem guar_update {id : ℕ} {g : ReportExport → ReportExport} {hg : ∀ e, key (g e) = key e}
    (hheld : d.locks id = some token) (h : updateExport id g hg d = .ok ((), u))
    (hformat : ∀ e, (g e).exportFormat = e.exportFormat) : (reportDiscipline token).guar l i d u := by
  obtain ⟨-, rfl⟩ := updateExport_cases h
  have hkey : Lockable.locks ReportCall d id = some token := hheld
  refine Protection.guar_write ⟨fun f hf => hf, fun _ _ h => ofFormat_update hformat h⟩ hkey rfl
    fun other hne => ?_
  change (isProcessing other _, _) = (isProcessing other d, _)
  rw [isProcessing, isProcessing, Table.find?_update_ne hg hne]

theorem sound_update {id : ℕ} {g : ReportExport → ReportExport} {hg : ∀ e, key (g e) = key e}
    (hd : Sound cfg d) (h : updateExport id g hg d = .ok ((), u))
    (hformat : ∀ e, (g e).exportFormat = e.exportFormat)
    (hfile : ∀ e ∈ d.exports.rows, key e = id → (g e).exportStatus = .completed → FiledExport cfg (g e) d) :
    Sound cfg u := by
  obtain ⟨-, rfl⟩ := updateExport_cases h
  refine ⟨fun e he hstatus => ?_, fun job hjob => ofFormat_update hformat (hd.jobsFit job hjob)⟩
  obtain ⟨e', he', rfl⟩ := (Table.mem_update hg).mp he
  split at hstatus
  next hkey =>
    rw [if_pos hkey]
    exact hfile e' he' hkey hstatus
  next hkey =>
    rw [if_neg hkey]
    exact hd.filed e' he' hstatus

theorem working_processing {id : ℕ} (hheld : d.locks id = some token)
    (h : updateExport id processing key_processing d = .ok ((), u)) : Working token id u := by
  obtain ⟨⟨e, he⟩, rfl⟩ := updateExport_cases h
  refine ⟨hheld, ?_⟩
  rw [isProcessing, Table.find?_update_self key_processing he]
  rfl

theorem Working.ne_completed {id : ℕ} (h : Working token id d) (he : e ∈ d.exports.rows)
    (hstatus : e.exportStatus = .completed) : e.id ≠ id := by
  rintro rfl
  have hfind : d.exports.find? e.id = some e := Table.find?_eq_some_iff.mpr ⟨he, rfl⟩
  obtain ⟨-, hprocessing⟩ := h
  simp [isProcessing, hfind, hstatus] at hprocessing

theorem sound_put {format : ReportExportFormat} {object : StoredObject} {id : ℕ} (hd : Sound cfg d)
    (hwork : Working token id d) :
    Sound cfg { d with objects := Function.update d.objects (objectKey id format) (some object) } := by
  refine ⟨fun e he hstatus => ?_, jobsFit_of_eq hd.jobsFit rfl rfl⟩
  obtain ⟨f, hf, data, now, hid, hlive, hkey, hobject, hrest⟩ := hd.filed e he hstatus
  refine ⟨f, hf, data, now, hid, hlive, hkey, ?_, hrest⟩
  have hne : f.objectKey ≠ objectKey id format := by
    rw [hkey, ne_eq, objectKey_inj]
    exact fun h => hwork.ne_completed he hstatus h.1
  exact (Function.update_of_ne hne _ _).trans hobject

theorem guar_put {format : ReportExportFormat} {object : StoredObject} {id : ℕ}
    (hheld : d.locks id = some token) : (reportDiscipline token).guar l i d
      { d with objects := Function.update d.objects (objectKey id format) (some object) } := by
  have hkey : Lockable.locks ReportCall d id = some token := hheld
  refine Protection.guar_write ⟨fun f hf => hf, fun _ _ h => h⟩ hkey rfl fun other hne => ?_
  refine congrArg (Prod.mk _) (funext fun format' => Function.update_of_ne ?_ _ _)
  rw [ne_eq, objectKey_inj]
  exact fun h => hne h.1

theorem createMedia_cases {body : Text} {n : ℕ} (h : createMedia cfg job body d = .ok (n, u)) :
    n = d.mediaFiles.next ∧ u = { d with
      mediaFiles := d.mediaFiles.insert (newMedia cfg job body) (key_newMedia cfg job body) } := by
  simp only [createMedia, bind_eq_ok, check_eq_ok, pure_eq_ok, Prod.mk.injEq, exists_const] at h
  obtain ⟨-, -, -, rfl, rfl⟩ := h
  exact ⟨rfl, rfl⟩

theorem sound_insert {mk : ℕ → MediaFile} {hmk : ∀ n, key (mk n) = n} (hd : Sound cfg d) :
    Sound cfg { d with mediaFiles := d.mediaFiles.insert mk hmk } := by
  refine ⟨fun e he hstatus => ?_, jobsFit_of_eq hd.jobsFit rfl rfl⟩
  obtain ⟨f, hf, hfile⟩ := hd.filed e he hstatus
  exact ⟨f, (Table.mem_insert hmk).mpr (.inl hf), hfile⟩

theorem guar_insert {mk : ℕ → MediaFile} {hmk : ∀ n, key (mk n) = n} : (reportDiscipline token).guar l i d
    { d with mediaFiles := d.mediaFiles.insert mk hmk } :=
  ⟨⟨fun _ hf => (Table.mem_insert hmk).mpr (.inl hf), fun _ _ h => h⟩, fun _ _ _ hkey => ⟨hkey, rfl⟩⟩

theorem createExport_cases {actorId savedReportId : Option ℕ} {format : ReportExportFormat} {n : ℕ}
    (h : createExport actorId savedReportId format d = .ok (n, u)) :
    u = { d with
      exports := d.exports.insert (newExport actorId savedReportId format)
        (key_newExport actorId savedReportId format) } := by
  simp only [createExport, bind_eq_ok, check_eq_ok, pure_eq_ok, Prod.mk.injEq, exists_const] at h
  exact h.2.2.2.symm

theorem ofFormat_create {actorId savedReportId : Option ℕ} {format : ReportExportFormat}
    (id' : ℕ) (format' : ReportExportFormat) (h : OfFormat id' format' d) :
    OfFormat id' format' { d with
      exports := d.exports.insert (newExport actorId savedReportId format)
        (key_newExport actorId savedReportId format) } := by
  obtain ⟨e, he, hrow⟩ := h
  exact ⟨e, (Table.mem_insert (key_newExport _ _ _)).mpr (.inl he), hrow⟩

theorem ofFormat_created {actorId savedReportId : Option ℕ} {format : ReportExportFormat} {n : ℕ}
    (h : createExport actorId savedReportId format d = .ok (n, u)) : OfFormat n format u := by
  simp only [createExport, bind_eq_ok, check_eq_ok, pure_eq_ok, Prod.mk.injEq, exists_const] at h
  obtain ⟨-, -, rfl, rfl⟩ := h
  exact ⟨_, (Table.mem_insert (key_newExport _ _ _)).mpr (.inr rfl), rfl, rfl⟩

theorem sound_create {actorId savedReportId : Option ℕ} {format : ReportExportFormat} {n : ℕ}
    (hd : Sound cfg d) (h : createExport actorId savedReportId format d = .ok (n, u)) : Sound cfg u := by
  obtain rfl := createExport_cases h
  refine ⟨fun e he hstatus => ?_, fun job hjob => ofFormat_create _ _ (hd.jobsFit job hjob)⟩
  rcases (Table.mem_insert (key_newExport actorId savedReportId format)).mp he with he | rfl
  · exact hd.filed e he hstatus
  · cases hstatus

theorem sound_enqueue (hd : Sound cfg d) (hjob : OfFormat job.exportId job.format d) :
    Sound cfg { d with jobs := d.jobs ++ [job] } := by
  refine ⟨hd.filed, fun job' hmem => ?_⟩
  rcases List.mem_append.mp hmem with hmem | hmem
  · exact hd.jobsFit job' hmem
  · obtain rfl := List.mem_singleton.mp hmem
    exact hjob

theorem guar_create {actorId savedReportId : Option ℕ} {format : ReportExportFormat} {n : ℕ}
    (h : createExport actorId savedReportId format d = .ok (n, u)) :
    (reportDiscipline token).guar l i d u := by
  obtain rfl := createExport_cases h
  refine ⟨⟨fun f hf => hf, fun _ _ h => ofFormat_create _ _ h⟩,
    fun other _ id hkey => ⟨hkey, congrArg (Prod.mk · _) ?_⟩⟩
  rw [isProcessing, isProcessing, Table.find?_insert (key_newExport actorId savedReportId format)]
  split
  next hid =>
    have hfresh : d.exports.find? id = none := by
      refine Table.find?_eq_none_iff.mpr fun e he => ?_
      have hlt := d.exports.fresh e he
      omega
    rw [hfresh]
    rfl
  next => rfl

/-! ### Programs -/

abbrev ReportHolds {α : Type} (cfg : ReportConfig) (token : ℕ) (Q : Except Failure α → ReportDesk → Prop)
    (p : ReportProg α) (d : ReportDesk) : Prop :=
  Holds (reportWorld cfg) Protection.idle (reportDiscipline token) Q p d

theorem resolveReportData_holds {P : ReportDesk → Prop} (saved : Option ℕ)
    (hP : ∀ t t', (reportDiscipline token).rely t t' → P t → P t') (hd : P d) :
    ReportHolds cfg token (fun _ t => P t) (resolveReportData saved) d := by
  have hread : ∀ source, (readSource source).Every (fun _ _ _ => True) fun _ _ t t' => t = t' :=
    fun source => every_query fun _ _ _ => rfl
  have hevery : (resolveReportData saved).Every (fun _ _ _ => True) fun _ _ t t' => t = t' := by
    cases saved with
    | none => exact hread _
    | some id =>
      apply Prog.Every.bind
      · exact every_query fun _ _ _ => rfl
      intro found
      apply (Prog.every_orThrow _ _).bind
      intro report
      exact hread _
  refine Holds.of_every hP (hevery.imp (fun _ _ _ _ => trivial) ?_) hd
  intro l i t t' ho heq
  subst heq
  exact ⟨ho.2, Protection.guar_refl, rfl, fun h => h⟩

theorem holds_publishBind {α : Type} {Q : Except Failure α → ReportDesk → Prop} {event : AnalyticsEvent}
    {k : Unit → ReportProg α}
    (h : ∀ t, (reportDiscipline token).rely d t →
      ReportHolds cfg token Q (k ()) { t with published := t.published ++ [event] }) :
    ReportHolds cfg token Q ((publishEvent event).bind k) d := by
  apply Holds.callBind
  intro t ht hi i _
  exact ⟨sound_of_eq hi rfl rfl rfl rfl, guar_of_eq rfl rfl rfl rfl, h t ht⟩

def Held (token id : ℕ) (d : ReportDesk) : Prop := d.locks id = some token

theorem Held.stable {id : ℕ} (h : Held token id d) (hd : (reportDiscipline token).rely d d') :
    Held token id d' :=
  (hd.2 id h).1

theorem OfFormat.stable {id : ℕ} {format : ReportExportFormat} (h : OfFormat id format d)
    (hd : (reportDiscipline token).rely d d') : OfFormat id format d' :=
  hd.1.2 id format h

def Recorded (id : ℕ) (d : ReportDesk) : Prop :=
  ∃ e ∈ d.exports.rows, e.id = id ∧
    ∃ f ∈ d.mediaFiles.rows, f.objectKey = objectKey id e.exportFormat ∧ f.mimeType = mimeOf e.exportFormat

theorem Recorded.frame {id : ℕ} (h : Recorded id d) (hd : reportProtection.frame d d') : Recorded id d' := by
  obtain ⟨e, he, hid, f, hf, hrow⟩ := h
  obtain ⟨e', he', hid', hformat⟩ := hd.2 id e.exportFormat ⟨e, he, hid, rfl⟩
  rw [← hformat] at hrow
  exact ⟨e', he', hid', f, hd.1 f hf, hrow⟩

theorem Recorded.stable {id : ℕ} (h : Recorded id d) (hd : (reportDiscipline token).rely d d') :
    Recorded id d' :=
  h.frame hd.1

def Produced (token : ℕ) (job : ExportJob) (r : Except Failure Unit) (d : ReportDesk) : Prop :=
  Held token job.exportId d ∧ (r = .ok () → Recorded job.exportId d)

theorem produced_error (e : Failure) (h : Held token job.exportId d) : Produced token job (.error e) d :=
  ⟨h, fun hr => by cases hr⟩

theorem auditExport_holds (h : Produced token job (.ok ()) d) :
    ReportHolds cfg token (Produced token job) (auditExport job) d := by
  apply holds_atomic
  intro t ht hi i _
  refine ⟨Protection.guar_refl, ?_, ?_⟩
  · intro e t' _ ht' _
    exact produced_error e ((h.1.stable ht).stable ht')
  intro _ u _ hu
  simp only [bind_eq_ok, check_eq_ok, pure_eq_ok, Prod.mk.injEq, exists_const, true_and] at hu
  obtain ⟨-, rfl⟩ := hu
  refine ⟨sound_of_eq hi rfl rfl rfl rfl, guar_of_eq rfl rfl rfl rfl, ?_⟩
  intro t' ht' _
  have hu : Held token job.exportId { t with audits := t.audits ++ [(job.exportId, job.actorId)] } :=
    h.1.stable ht
  have hfile : Recorded job.exportId { t with audits := t.audits ++ [(job.exportId, job.actorId)] } :=
    (h.2 rfl).stable ht
  exact ⟨hu.stable ht', fun _ => hfile.stable ht'⟩

theorem tellCompleted_holds (h : Produced token job (.ok ()) d) :
    ReportHolds cfg token (Produced token job) (do
      publishEvent (.exportCompleted job.exportId job.format .completed)
      publishGenerated job
      auditExport job) d := by
  apply holds_publishBind
  intro t ht
  have ht₁ : Produced token job (.ok ())
      { t with published := t.published ++ [.exportCompleted job.exportId job.format .completed] } :=
    ⟨h.1.stable ht, fun _ => (h.2 rfl).stable ht⟩
  unfold publishGenerated
  split
  next id _ =>
    apply holds_publishBind
    intro t' ht'
    apply auditExport_holds
    exact ⟨ht₁.1.stable ht', fun _ => (ht₁.2 rfl).stable ht'⟩
  next => exact auditExport_holds ht₁

theorem fileExport_holds {data : List Datum} {now : ℕ} (hwork : Working token job.exportId d)
    (hfits : OfFormat job.exportId job.format d)
    (hobject : d.objects (objectKey job.exportId job.format) =
      some ⟨render cfg job.format data now, mimeOf job.format⟩) :
    ReportHolds cfg token (Produced token job)
      (fileExport cfg job data (render cfg job.format data now)) d := by
  apply holds_atomicBind
  intro t ht hi i _
  have hwork₁ := hwork.stable ht
  refine ⟨Protection.guar_refl, ?_, ?_⟩
  · intro e t' _ ht' _
    exact produced_error e (hwork₁.stable ht').1
  intro n u _ hu
  obtain ⟨rfl, hrow⟩ := createMedia_cases hu
  have hinserted : Sound cfg u ∧ (reportDiscipline token).guar
      (.createMedia (objectKey job.exportId job.format)) i t u := by
    rw [hrow]
    exact ⟨sound_insert hi, guar_insert⟩
  refine ⟨hinserted.1, hinserted.2, ?_⟩
  have hworku : Working token job.exportId u := by
    rw [hrow]
    exact hwork₁
  have hfitsu : OfFormat job.exportId job.format u := by
    have hfitst : OfFormat job.exportId job.format t := hfits.stable ht
    rw [hrow]
    exact hfitst
  have hobjectu : u.objects (objectKey job.exportId job.format) =
      some ⟨render cfg job.format data now, mimeOf job.format⟩ := by
    rw [hrow]
    exact (object_stable hwork.1 ht job.format).trans hobject
  have hfu : newMedia cfg job (render cfg job.format data now) t.mediaFiles.next ∈ u.mediaFiles.rows := by
    rw [hrow]
    exact (Table.mem_insert (key_newMedia cfg job _)).mpr (.inr rfl)
  apply holds_atomicBind
  intro t₂ ht₂ hi₂ i₂ _
  have hwork₂ := hworku.stable ht₂
  refine ⟨Protection.guar_refl, ?_, ?_⟩
  · intro e t' _ ht' _
    exact produced_error e (hwork₂.stable ht').1
  intro _ v _ hv
  have hf := ht₂.1.1 _ hfu
  obtain ⟨e₂, he₂, hid₂, hformat₂⟩ := hfitsu.stable ht₂
  have hobject₂ := (object_stable hworku.1 ht₂ job.format).trans hobjectu
  refine ⟨sound_update hi₂ hv (fun _ => rfl) ?_, guar_update hwork₂.1 hv fun _ => rfl, ?_⟩
  · intro e he hid _
    obtain rfl : e = e₂ := t₂.exports.eq_of_key_eq he he₂ (hid.trans hid₂.symm)
    refine ⟨_, hf, data, now, rfl, rfl, ?_, ?_, ?_, ?_, rfl⟩
    · exact congrArg₂ objectKey hid.symm hformat₂.symm
    · change _ = some (⟨render cfg e.exportFormat data now, _⟩ : StoredObject)
      rw [hformat₂]
      exact hobject₂
    · exact congrArg mimeOf hformat₂.symm
    · exact congrArg (fun format => byteLength (render cfg format data now)) hformat₂.symm
  obtain ⟨-, rfl⟩ := updateExport_cases hv
  obtain ⟨e₃, he₃, hid₃, hformat₃⟩ := ofFormat_completed
    t.mediaFiles.next data.length i₂.now ⟨e₂, he₂, hid₂, hformat₂⟩
  apply tellCompleted_holds
  refine ⟨hwork₂.1, fun _ => ⟨e₃, he₃, hid₃, _, hf, ?_, ?_⟩⟩
  · exact congrArg (objectKey job.exportId) hformat₃.symm
  · exact congrArg mimeOf hformat₃.symm

theorem produceExport_holds (hwork : Working token job.exportId d)
    (hfits : OfFormat job.exportId job.format d) (hd : Sound cfg d) :
    ReportHolds cfg token (Produced token job) (produceExport cfg job) d := by
  have hresolve : ReportHolds cfg token
      (fun _ t => Working token job.exportId t ∧ OfFormat job.exportId job.format t)
      (resolveReportData job.savedReportId) d :=
    resolveReportData_holds job.savedReportId (fun _ _ ht h => ⟨h.1.stable ht, h.2.stable ht⟩)
      ⟨hwork, hfits⟩
  refine Holds.bind (Holds.mono ?_ hresolve) hd
  intro r t hi ⟨hworking, hfits⟩
  cases r with
  | error e => exact produced_error e hworking.1
  | ok found =>
    apply holds_atomicBind
    intro t₁ ht₁ hi₁ i₁ _
    have hworking₁ := hworking.stable ht₁
    refine ⟨Protection.guar_refl, ?_, ?_⟩
    · intro e t' _ ht' _
      exact produced_error e (hworking₁.stable ht').1
    intro _ u _ hu
    obtain ⟨-, rfl⟩ := Prod.mk.inj (Except.ok.inj hu)
    refine ⟨sound_put hi₁ hworking₁, guar_put hworking₁.1, ?_⟩
    have hfits₁ := hfits.stable ht₁
    exact fileExport_holds hworking₁ hfits₁ (Function.update_self ..)

theorem recordFailure_holds {Q : Except Failure Unit → ReportDesk → Prop} (e : Failure)
    (hheld : Held token job.exportId d) (hQ : ∀ e t, Q (.error e) t) :
    ReportHolds cfg token Q (recordFailure job e) d := by
  apply holds_atomicBind
  intro t ht hi i _
  refine ⟨Protection.guar_refl, fun e t' _ _ _ => hQ e t', ?_⟩
  intro _ u _ hu
  refine ⟨sound_update hi hu (fun _ => rfl) ?_, guar_update (hheld.stable ht) hu fun _ => rfl, ?_⟩
  · intro e' _ _ hstatus
    cases hstatus
  apply holds_publishBind
  intro t' _ t'' _ _
  exact hQ e t''

/-- What is known at the end of a delivery: the export that it completed has its file. -/
def Delivered (r : Except Failure ReportResponse) (d : ReportDesk) : Prop :=
  ∀ id, r = .ok (.completed id) → Recorded id d

theorem delivered_error (e : Failure) (d : ReportDesk) : Delivered (.error e) d := by
  intro id h
  cases h

theorem processExport_holds (job : ExportJob) (hfits : OfFormat job.exportId job.format d) :
    ReportHolds cfg token Delivered (processExport cfg token job) d := by
  apply Protection.holds_withLock_result _ delivered_error
  · exact fun m t hi => sound_of_eq hi rfl rfl rfl rfl
  · intro t hframe hi hheld
    have hlock : Held token job.exportId t := hheld
    have hfitst := hframe.2 _ _ hfits
    apply holds_atomicBind
    intro t₁ ht₁ hi₁ i₁ _
    have hlock₁ := hlock.stable ht₁
    refine ⟨Protection.guar_refl, fun e t' _ _ _ => delivered_error e t', ?_⟩
    intro _ u _ hu
    have hinv : Sound cfg u := by
      refine sound_update hi₁ hu (fun _ => rfl) fun e _ _ hstatus => ?_
      cases hstatus
    refine ⟨hinv, guar_update hlock₁ hu fun _ => rfl, ?_⟩
    have hfitsu : OfFormat job.exportId job.format u := by
      obtain ⟨-, rfl⟩ := updateExport_cases hu
      exact ofFormat_update (fun _ => rfl) (hfitst.stable ht₁)
    have hproduce := produceExport_holds (working_processing hlock₁ hu) hfitsu hinv
    have hcatch : ReportHolds cfg token (fun r t => r = .ok () → Recorded job.exportId t)
        (tryCatch (produceExport cfg job) fun e => recordFailure job e) u := by
      rw [Prog.tryCatch_eq]
      refine Holds.tryCatch (Holds.mono ?_ hproduce) hinv
      intro r t' hi' hproduced
      cases r with
      | error e =>
        apply recordFailure_holds e hproduced.1
        intro e' t'' h
        cases h
      | ok _ => exact fun t'' ht'' _ _ => (hproduced.2 rfl).stable ht''
    refine Holds.bind (Holds.mono ?_ hcatch) hinv
    intro r t' _ hrecorded
    cases r with
    | error e => exact delivered_error e t'
    | ok _ =>
      intro t'' ht'' _ id hid
      obtain rfl : job.exportId = id := by simpa using hid
      exact (hrecorded rfl).stable ht''
  · intro r t t' ht hr id h
    exact (hr id h).frame ht

theorem deliverExport_holds (k : ℕ) : ReportHolds cfg token Delivered (deliverExport cfg token k) d := by
  apply holds_queryBind
  intro t _ hi i _
  refine ⟨Protection.guar_refl, fun t' _ _ => delivered_error _ t', fun _ => ?_⟩
  cases hjob : t.jobs[k]? with
  | none =>
    intro t' _ _ id h
    simp at h
  | some job => exact processExport_holds job (hi.jobsFit job (List.mem_of_getElem? hjob))

theorem enqueueGenerate_holds {Q : Except Failure ReportResponse → ReportDesk → Prop} {actorId : Option ℕ}
    {input : GenerateInput} (hQ : ∀ r t, Q r t) (hd : Sound cfg d) :
    ReportHolds cfg token Q (enqueueGenerate actorId input) d := by
  unfold enqueueGenerate
  split
  next format _ =>
    apply holds_atomicBind
    intro t _ hi i _
    refine ⟨Protection.guar_refl, fun _ _ _ _ _ => hQ _ _, ?_⟩
    intro id u _ hu
    refine ⟨sound_create hi hu, guar_create hu, ?_⟩
    have hfits := ofFormat_created hu
    apply holds_atomicBind
    intro t' ht' hi' i' _
    refine ⟨Protection.guar_refl, fun _ _ _ _ _ => hQ _ _, ?_⟩
    intro _ v _ hv
    obtain ⟨-, rfl⟩ := Prod.mk.inj (Except.ok.inj hv)
    refine ⟨sound_enqueue hi' (hfits.stable ht'), guar_of_eq rfl rfl rfl rfl, fun _ _ _ => hQ _ _⟩
  next =>
    have hresolve : ReportHolds cfg token (fun _ _ => True) (resolveReportData input.savedReportId) d :=
      resolveReportData_holds input.savedReportId (fun _ _ _ h => h) trivial
    refine Holds.bind (Holds.mono ?_ hresolve) hd
    intro r t _ _
    cases r with
    | error e => exact hQ _ _
    | ok found => exact fun _ _ _ => hQ _ _

/-! ### Whole runs -/

def ReportRequest.Ends : ReportRequest → Except Failure ReportResponse → ReportDesk → Prop
  | .generate _ _ => fun _ _ => True
  | .deliver _ => Delivered

/-- However often jobs are delivered, whatever the calls of jobs and requests do at once and whichever of
them fail: a completed export has its file, whose object is the rendering, in the export's format, of as
many rows as the export says, and the export that a delivery completed has registered its object. -/
theorem exports_filed (cfg : ReportConfig) (requests : List ReportRequest) (d : ReportDesk)
    (sched : List (ℕ × Input (List Datum))) (hd : Filed cfg d) (hjobs : JobsFit d) :
    Filed cfg ((reportPool cfg requests d).run sched).state ∧
      ∀ (j k : ℕ) id, requests[j]? = some (.deliver k) →
        ((reportPool cfg requests d).run sched).threads[j]? = some (.done (.ok (.completed id))) →
        Recorded id ((reportPool cfg requests d).run sched).state := by
  obtain ⟨hsound, hends⟩ : (reportWorld cfg).inv ((reportPool cfg requests d).run sched).state ∧
      ∀ (j : ℕ) q r, requests[j]? = some q →
        ((reportPool cfg requests d).run sched).threads[j]? = some (.done r) →
        q.Ends r ((reportPool cfg requests d).run sched).state := by
    refine Pool.run_answers ReportRequest.Ends (fun hQ => reportProtection.compatible hQ) ⟨hd, hjobs⟩ ?_
      (Pool.admits_of_forall (fun _ _ _ => trivial) _ sched)
    intro j q _ hj
    rw [Protection.tokens, if_pos hj]
    cases q with
    | generate actorId input => exact enqueueGenerate_holds (fun _ _ => trivial) ⟨hd, hjobs⟩
    | deliver k => exact deliverExport_holds k
  refine ⟨hsound.filed, ?_⟩
  intro j k id hq hdone
  exact hends j _ _ hq hdone id rfl

def plainReports : ReportConfig := ⟨none, fun _ => []⟩

def exportDesk : ReportDesk where
  exports := Table.empty.insert (newExport none none .csv) (key_newExport none none .csv)
  jobs := [⟨0, none, .csv, none⟩]

/-- One row; the second delivery of the job asks for the lock while the first is at work. -/
def twoDeliveries : Pool ReportCall (Input (List Datum)) ReportDesk Failure ReportResponse :=
  (reportPool plainReports [.deliver 0, .deliver 0] exportDesk).run
    ([0, 0, 0, 0, 1, 1, 0, 0, 0, 0, 0, 0].map fun j => (j, { reply := [.other (.boolean true)] }))

theorem exports_filed_two : Filed plainReports twoDeliveries.state ∧
    (twoDeliveries.state.exports.rows.map fun e => (e.exportStatus, e.mediaFileId, e.rowCount)) =
      [(.completed, some 0, some 1)] := by
  refine ⟨(exports_filed plainReports [.deliver 0, .deliver 0] exportDesk _ ?_ ?_).1, by decide +kernel⟩
  · intro e he hstatus
    obtain rfl := List.mem_singleton.mp he
    cases hstatus
  · intro job hjob
    obtain rfl := List.mem_singleton.mp hjob
    exact ⟨_, List.mem_singleton.mpr rfl, rfl, rfl⟩

end ElectronicsCart.Analytics
