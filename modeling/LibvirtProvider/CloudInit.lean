import LibvirtProvider.Provider

/-!
# The cloud-init image across retries

A machine that could not be created is tried again, and every attempt takes
the volumes it finds for done. What that means for the cloud-init image: its
volume is created first and filled after, so an attempt that fails in between
leaves a volume with undefined content, and every later attempt attaches it.

Which attempts create a volume at all depends on the form of the errors. When
they come by value, none does: `getVolumePath` fails on a volume that is not
there, so that no attempt changes a volume, and on a pool without the volumes
of the machine every attempt fails before it defines a domain
(`cloudInit_intact`). For errors of either form, the content of the volume that
a domain is defined with is the image of the configuration exactly when no
earlier attempt was interrupted between the two steps
(`cloudInit_intact_iff`); what happens otherwise once errors are recognised is
`cloudInit_not_intact`.
-/

namespace LibvirtProvider

open Interaction

/-! ## Reading a trace -/

/-- The definition of a domain that succeeded. -/
def definedDomain : Event LibvirtSig → Option (DomainXML × DomainRef)
  | ⟨.domainDefineXML xml, .ok ref⟩ => some (xml, ref)
  | _ => none

/-- The creation of a volume that succeeded. -/
def createdVolume (pool name : String) : Event LibvirtSig → Bool
  | ⟨.storageVolCreateXML p xml _, .ok _⟩ => p.name == pool && xml.name == name
  | _ => false

/-- The end of an upload that succeeded. -/
def finishedUpload : Event LibvirtSig → Bool
  | ⟨.finish _, .ok _⟩ => true
  | _ => false

/-- **An attempt was interrupted**: it created the volume of the image, and no
upload finished. This is a property of the calls that were made and their
answers, and does not look at the volume. -/
def Interrupted (cfg : MachineConfig) (tr : List (Event LibvirtSig)) : Prop :=
  tr.any (createdVolume cfg.domainPool cfg.isoDiskName) = true ∧ tr.any finishedUpload = false

/-- In the course of an attempt, the image for the configuration was written,
and these are its bytes. What the image library makes of a configuration is
left open, so that the image is referred to by the run that wrote it. -/
def Produced (cfg : MachineConfig) (image : Bytes) (tr : List (Event LibvirtSig)) : Prop :=
  ∃ pre mid post s s', tr = pre ++ mid ++ post
    ∧ Prog.Exec libvirtSem (writeCloudInitISO cfg).run s mid s' (.ok image)

theorem Produced.append {cfg : MachineConfig} {image : Bytes} {tr : List (Event LibvirtSig)}
    (h : Produced cfg image tr) (before after : List (Event LibvirtSig)) :
    Produced cfg image (before ++ tr ++ after) := by
  obtain ⟨pre, mid, post, s, s', rfl, he⟩ := h
  exact ⟨before ++ pre, mid, post ++ after, s, s', by simp, he⟩

/-- A call that leaves a volume alone neither creates it nor ends an
upload. -/
theorem not_created_of_leavesVolume {pool name : String} {ev : Event LibvirtSig}
    (h : ev.1.leavesVolume pool name = true) :
    createdVolume pool name ev = false ∧ finishedUpload ev = false := by
  obtain ⟨o, r⟩ := ev
  cases o with
  | storageVolCreateXML p xml flags =>
    refine ⟨?_, rfl⟩
    cases r with
    | error e => rfl
    | ok ref => rwa [← Bool.not_eq_true']
  | finish => cases h
  | _ => exact ⟨rfl, rfl⟩

/-- **A program that leaves a volume alone**: its runs do. -/
theorem aside_exec {α : Type} {pool name : String} {p : Prog LibvirtSig α} {s s' : Host}
    {tr : List (Event LibvirtSig)} {a : α}
    (hp : p.Calls fun o : LibvirtOp => o.leavesVolume pool name = true)
    (h : Prog.Exec libvirtSem p s tr s' a) :
    s'.storage.volume pool name = s.storage.volume pool name
    ∧ tr.any (createdVolume pool name) = false ∧ tr.any finishedUpload = false := by
  refine ⟨hp.keeps (fun t => t.storage.volume pool name)
    (fun _ _ _ _ ho hs => libvirtSem_volume hs ho) h, ?_, ?_⟩
  · rw [List.any_eq_false]
    intro ev hev
    simp [(not_created_of_leavesVolume (hp.of_mem h hev)).1]
  · rw [List.any_eq_false]
    intro ev hev
    simp [(not_created_of_leavesVolume (hp.of_mem h hev)).2]

/-! ## Uploading -/

/-- **The callback returns the whole buffer**, however much it is asked for at
a time. So what is uploaded does not depend on how libvirt splits it. -/
theorem flatten_readChunks {n : ℕ} (hn : 0 < n) {rounds : ℕ} {data : Bytes}
    (h : data.length ≤ rounds) : (readChunks n rounds data).flatten = data := by
  induction rounds generalizing data with
  | zero => rw [List.eq_nil_of_length_eq_zero (Nat.le_zero.mp h)]; rfl
  | succ rounds ih =>
    rw [readChunks]
    split
    · rename_i hlen
      rw [List.length_take] at hlen
      rw [List.flatten_cons, ih (by rw [List.length_drop]; omega), List.take_append_drop]
    · rename_i hlen
      rw [List.length_take] at hlen
      rw [List.eq_nil_of_length_eq_zero (l := data) (by omega)]
      rfl

section Exec

variable {s s' : Host} {tr : List (Event LibvirtSig)} {cfg : MachineConfig}

/-- **A run of `storageVolUpload`** to a volume that is there: it fails and
the content is undefined or what it was, or it succeeds and the content is
the buffer. -/
theorem storageVolUpload_exec {buff : Bytes} {pool name : String} {v : Volume}
    {r : Except GoError Unit} (hv : s.storage.volume pool name = some v)
    (h : Prog.Exec libvirtSem (storageVolUpload buff ⟨pool, name⟩).run s tr s' r) :
    (∃ e, r = .error e) ∧ tr.any finishedUpload = false
        ∧ (s'.storage.volume pool name = some v
          ∨ s'.storage.volume pool name = some { v with content := none })
    ∨ r = .ok () ∧ tr.any finishedUpload = true
        ∧ s'.storage.volume pool name = some { v with content := some buff } := by
  rcases Prog.exec_bind_except.mp h with ⟨e, hx, rfl⟩ | ⟨stream, s₁, _, tr₁, rfl, hx, h₁⟩
  · obtain ⟨r', hx, -⟩ := Prog.exec_adapt.mp hx
    obtain ⟨hs, rfl⟩ := Prog.exec_perform.mp hx
    refine Or.inl ⟨⟨e, rfl⟩, rfl, Or.inl ?_⟩
    rw [libvirtSem_volume hs rfl, hv]
  obtain ⟨hs, rfl⟩ := Prog.exec_perform.mp (Prog.exec_adapt_ok.mp hx)
  have hv₁ : s₁.storage.volume pool name = some v := by rw [libvirtSem_volume hs rfl, hv]
  have hst₁ := libvirtSem_newStream_ok hs
  rcases Prog.exec_bind_except.mp h₁ with ⟨e, hx, rfl⟩ | ⟨_, s₂, _, tr₂, rfl, hx, h₂⟩
  · obtain ⟨r', hx, hr⟩ := Prog.exec_adapt.mp hx
    obtain ⟨hs, rfl⟩ := Prog.exec_perform.mp hx
    rcases libvirtSem_upload hv₁ hst₁ hs with ⟨-, rfl⟩ | ⟨rfl, -⟩
    · exact Or.inl ⟨⟨e, rfl⟩, rfl, Or.inl hv₁⟩
    · cases hr
  obtain ⟨hs, rfl⟩ := Prog.exec_perform.mp (Prog.exec_adapt_ok.mp hx)
  obtain ⟨hv₂, hst₂⟩ : s₂.storage.volume pool name = some { v with content := none }
      ∧ s₂.storage.streams stream.id = some ⟨some (pool, name), []⟩ := by
    rcases libvirtSem_upload hv₁ hst₁ hs with ⟨⟨e, hr⟩, -⟩ | ⟨-, h⟩
    · cases hr
    · exact h
  obtain ⟨sent, s₃, _, tr₃, rfl, hx, h₃⟩ := Prog.exec_lift_bind.mp h₂
  obtain ⟨hs, rfl⟩ := Prog.exec_perform.mp hx
  have hv₃ : s₃.storage.volume pool name = some { v with content := none } := by
    rw [libvirtSem_volume hs rfl, hv₂]
  rcases libvirtSem_sendAll hst₂ hs with ⟨⟨e, rfl⟩, -⟩ | ⟨rfl, hst₃⟩
  · -- nothing was sent, and whatever comes of the abort is dropped
    obtain ⟨aborted, s₄, _, _, rfl, hx, rfl, rfl, rfl⟩ := Prog.exec_lift_bind.mp h₃
    obtain ⟨hs, rfl⟩ := Prog.exec_perform.mp hx
    refine Or.inl ⟨⟨_, rfl⟩, rfl, Or.inr ?_⟩
    rw [libvirtSem_volume hs rfl, hv₃]
  · rw [flatten_readChunks (by decide) (Nat.le_refl _), List.nil_append] at hst₃
    obtain ⟨r', hx, rfl⟩ := Prog.exec_adapt.mp h₃
    obtain ⟨hs, rfl⟩ := Prog.exec_perform.mp hx
    rcases libvirtSem_finish hst₃ hv₃ hs with ⟨⟨e, rfl⟩, rfl⟩ | ⟨rfl, hv₄⟩
    · exact Or.inl ⟨⟨_, rfl⟩, rfl, Or.inr hv₃⟩
    · exact Or.inr ⟨rfl, rfl, hv₄⟩

/-- **A run of `getVolumePath`** changes nothing, and what it returns is
right. -/
theorem getVolumePath_exec {pool : StoragePoolRef} {name : String} {r : Except GoError String}
    (h : Prog.Exec libvirtSem (getVolumePath pool name).run s tr s' r) :
    s' = s ∧ ∀ path, r = .ok path →
      path = "" ∧ s.storage.volume pool.name name = none ∧ s.errors = .pointer
      ∨ path ≠ "" ∧ s.storage.getPath ⟨pool.name, name⟩ = .ok path := by
  have hcalls : (getVolumePath pool name).run.Calls (LibvirtOp.isQuery · = true) :=
    getVolumePath_calls (fun _ => LibvirtOp.isQuery_of_asksStorage) pool name
  obtain rfl : s' = s := hcalls.keeps id (fun _ _ _ _ ho hs => libvirtSem_query hs ho) h
  refine ⟨rfl, fun path hr => ?_⟩
  subst hr
  obtain ⟨found, s₁, _, tr₁, rfl, hx, h₁⟩ := Prog.exec_lift_bind.mp h
  obtain ⟨hs, rfl⟩ := Prog.exec_perform.mp hx
  obtain rfl := libvirtSem_query hs rfl
  rcases LibvirtChoice.exists_answer.mp hs with ⟨⟨code, rfl⟩, -⟩ | ⟨rfl, -⟩
  · exact absurd (Prog.exec_excused_ok.mp h₁).1 (by simp)
  cases hv : s₁.storage.volume pool.name name with
  | none =>
    simp only [Storage.lookupStorageVolByName, hv] at h₁
    obtain ⟨hform, rfl, -⟩ := Prog.exec_excused_ok.mp h₁
    exact Or.inl ⟨rfl, rfl, by simpa using hform⟩
  | some v =>
    simp only [Storage.lookupStorageVolByName, hv] at h₁
    obtain ⟨hs, -⟩ := Prog.exec_perform.mp (Prog.exec_adapt_ok.mp h₁)
    rcases LibvirtChoice.exists_answer.mp hs with ⟨⟨code, hr⟩, -⟩ | ⟨hr, -⟩
    · cases hr
    · replace hr := Prog.mapError_eq_ok.mp hr.symm
      exact Or.inr ⟨Storage.getPath_ne_empty _ hr, hr⟩

/-- **What an attempt does to the volume of the image**: it leaves it as it
is, or creates it and is interrupted, or creates it and fills it. An attempt
that finds the volume leaves it, in whatever state it is. -/
inductive ImageStep (cfg : MachineConfig) :
    Option Volume → List (Event LibvirtSig) → Option Volume → Prop where
  | kept {v : Option Volume} {tr : List (Event LibvirtSig)}
      (hcreated : tr.any (createdVolume cfg.domainPool cfg.isoDiskName) = false) :
      ImageStep cfg v tr v
  | half {v : Volume} {tr : List (Event LibvirtSig)} (hv : v.content = none)
      (hint : Interrupted cfg tr) : ImageStep cfg none tr (some v)
  | whole {v : Volume} {tr : List (Event LibvirtSig)} {image : Bytes}
      (hv : v.content = some image) (hprod : Produced cfg image tr)
      (hfin : tr.any finishedUpload = true) : ImageStep cfg none tr (some v)

/-- The rest of an attempt does not matter. -/
theorem ImageStep.append {v v' : Option Volume} {before after : List (Event LibvirtSig)}
    (h : ImageStep cfg v tr v')
    (hb : before.any (createdVolume cfg.domainPool cfg.isoDiskName) = false
      ∧ before.any finishedUpload = false)
    (ha : after.any (createdVolume cfg.domainPool cfg.isoDiskName) = false
      ∧ after.any finishedUpload = false) :
    ImageStep cfg v (before ++ tr ++ after) v' := by
  cases h with
  | kept hcreated => exact .kept (by simp only [List.any_append, hb, ha, hcreated]; rfl)
  | half hv hint =>
    refine .half hv ⟨?_, ?_⟩
    · simp only [List.any_append, hb, ha, hint.1]; rfl
    · simp only [List.any_append, hb, ha, hint.2]; rfl
  | whole hv hprod hfin =>
    exact .whole hv (hprod.append before after) (by simp only [List.any_append, hb, ha, hfin]; rfl)

theorem interrupted_append {before after : List (Event LibvirtSig)}
    (tr : List (Event LibvirtSig))
    (hb : before.any (createdVolume cfg.domainPool cfg.isoDiskName) = false
      ∧ before.any finishedUpload = false)
    (ha : after.any (createdVolume cfg.domainPool cfg.isoDiskName) = false
      ∧ after.any finishedUpload = false) :
    Interrupted cfg (before ++ tr ++ after) ↔ Interrupted cfg tr := by
  unfold Interrupted
  simp only [List.any_append, hb, ha, Bool.false_or, Bool.or_false]

/-- **A run of `createVolume`**, where the volume is not there. An error does
not say that there is still none: the path may be what could not be had. -/
theorem createVolume_exec {pool : StoragePoolRef} {xml : StorageVolume} {r : Except GoError String}
    (htarget : (s.storage.target pool.name).isSome)
    (hv : s.storage.volume pool.name xml.name = none)
    (h : Prog.Exec libvirtSem (createVolume pool xml).run s tr s' r) :
    tr.any finishedUpload = false
    ∧ ((∃ e, r = .error e) ∧ s' = s ∧ tr.any (createdVolume pool.name xml.name) = false
      ∨ s'.storage.volume pool.name xml.name = some ⟨xml, none⟩
        ∧ tr.any (createdVolume pool.name xml.name) = true
        ∧ ∀ path, r = .ok path → s'.storage.getPath ⟨pool.name, xml.name⟩ = .ok path) := by
  rcases Prog.exec_bind_except.mp h with ⟨e, hx, rfl⟩ | ⟨vol, s₁, _, tr₁, rfl, hx, h₁⟩
  · obtain ⟨r', hx, hr⟩ := Prog.exec_adapt.mp hx
    obtain ⟨hs, rfl⟩ := Prog.exec_perform.mp hx
    rcases libvirtSem_storageVolCreateXML htarget hv hs with ⟨⟨e', rfl⟩, rfl⟩ | ⟨rfl, -⟩
    · exact ⟨rfl, Or.inl ⟨⟨e, rfl⟩, rfl, rfl⟩⟩
    · cases hr
  obtain ⟨hs, rfl⟩ := Prog.exec_perform.mp (Prog.exec_adapt_ok.mp hx)
  rcases libvirtSem_storageVolCreateXML htarget hv hs with ⟨⟨e', hr⟩, -⟩ | ⟨hr, hv₁⟩
  · cases hr
  cases hr
  obtain ⟨r', hx, rfl⟩ := Prog.exec_adapt.mp h₁
  obtain ⟨hs, rfl⟩ := Prog.exec_perform.mp hx
  obtain rfl := libvirtSem_query hs rfl
  refine ⟨rfl, Or.inr ⟨hv₁, by simp [createdVolume], fun path hr => ?_⟩⟩
  cases r' with
  | error e => cases hr
  | ok path' =>
    cases hr
    rcases LibvirtChoice.exists_answer.mp hs with ⟨⟨code, hr⟩, -⟩ | ⟨hr, -⟩
    · cases hr
    · exact Prog.mapError_eq_ok.mp hr.symm

/-- The path of a volume that stays stays. -/
theorem getPath_of_exec {α : Type} {p : Prog LibvirtSig α} {a : α} {vol : StorageVolRef}
    {path : String} {v : Volume} (h : Prog.Exec libvirtSem p s tr s' a)
    (hpath : s.storage.getPath vol = .ok path)
    (hv : s'.storage.volume vol.pool vol.name = some v) : s'.storage.getPath vol = .ok path := by
  obtain ⟨dir, _, hdir, -, rfl⟩ := (s.storage.getPath_eq_ok).mp hpath
  refine (s'.storage.getPath_eq_ok).mpr ⟨dir, v, ?_, hv, rfl⟩
  rw [h.keeps (fun t => t.storage.target vol.pool) fun _ _ _ _ hs => libvirtSem_target hs _, hdir]

/-- What is left of `createISODisk` once the image is made: create the volume
and fill it. -/
def fillISODisk (cfg : MachineConfig) (buff : Bytes) : LibvirtM String := do
  let volumePath ← ExceptT.adapt (.wrap "create cloudinit disk")
    (createVolume ⟨cfg.domainPool⟩ (isoVolume cfg buff))
  let vol ← Conn.lookupStorageVolByName ⟨cfg.domainPool⟩ cfg.isoDiskName
  ExceptT.adapt (.wrap "upload data to volume") (storageVolUpload buff vol)
  pure volumePath

/-- **Creating the volume and filling it** can end in three ways. -/
theorem fillISODisk_exec {buff : Bytes} {r : Except GoError String}
    (htarget : (s.storage.target cfg.domainPool).isSome)
    (hv : s.storage.volume cfg.domainPool cfg.isoDiskName = none)
    (h : Prog.Exec libvirtSem (fillISODisk cfg buff).run s tr s' r) :
    (∃ e, r = .error e) ∧ s'.storage.volume cfg.domainPool cfg.isoDiskName = none
        ∧ tr.any (createdVolume cfg.domainPool cfg.isoDiskName) = false
    ∨ (∃ e, r = .error e) ∧ Interrupted cfg tr
        ∧ s'.storage.volume cfg.domainPool cfg.isoDiskName = some ⟨isoVolume cfg buff, none⟩
    ∨ tr.any finishedUpload = true
        ∧ s'.storage.volume cfg.domainPool cfg.isoDiskName
          = some ⟨isoVolume cfg buff, some buff⟩
        ∧ ∀ path, r = .ok path →
          s'.storage.getPath ⟨cfg.domainPool, cfg.isoDiskName⟩ = .ok path := by
  rcases Prog.exec_bind_except.mp h with ⟨e, hx, rfl⟩ | ⟨path, s₁, tr₁, _, rfl, hx, h₁⟩
  · obtain ⟨r', hx, hr⟩ := Prog.exec_adapt.mp hx
    obtain ⟨hf, ⟨-, rfl, hc⟩ | ⟨hv₁, hc, -⟩⟩ := createVolume_exec htarget hv hx
    · exact Or.inl ⟨⟨e, rfl⟩, hv, hc⟩
    · exact Or.inr (Or.inl ⟨⟨e, rfl⟩, ⟨hc, hf⟩, hv₁⟩)
  obtain ⟨hf, ⟨⟨e, hr⟩, -⟩ | ⟨hv₁, hc, hpath⟩⟩ :=
    createVolume_exec htarget hv (Prog.exec_adapt_ok.mp hx)
  · cases hr
  replace hpath := hpath path rfl
  change tr₁.any (createdVolume cfg.domainPool cfg.isoDiskName) = true at hc
  change s₁.storage.volume cfg.domainPool cfg.isoDiskName = some _ at hv₁
  -- from here on the volume is there, and any failure interrupts the attempt
  have hhalf : ∀ {t : List (Event LibvirtSig)}, t.any finishedUpload = false →
      Interrupted cfg (tr₁ ++ t) := fun ht => by
    constructor <;> simp only [List.any_append, hc, hf, ht] <;> rfl
  rcases Prog.exec_bind_except.mp h₁ with ⟨e, hx, rfl⟩ | ⟨vol, s₂, _, tr₂, rfl, hx, h₂⟩
  · obtain ⟨hs, rfl⟩ := Prog.exec_perform.mp hx
    obtain rfl := libvirtSem_query hs rfl
    exact Or.inr (Or.inl ⟨⟨e, rfl⟩, hhalf rfl, hv₁⟩)
  obtain ⟨hs, rfl⟩ := Prog.exec_perform.mp hx
  obtain rfl := libvirtSem_query hs rfl
  obtain rfl : vol = ⟨cfg.domainPool, cfg.isoDiskName⟩ := by
    rcases LibvirtChoice.exists_answer.mp hs with ⟨⟨code, hr⟩, -⟩ | ⟨hr, -⟩
    · cases hr
    · simpa [Storage.lookupStorageVolByName, hv₁, Except.mapError] using hr
  rcases Prog.exec_bind_except.mp h₂ with ⟨e, hx, rfl⟩ | ⟨_, s₃, _, tr₃, rfl, hx, h₃⟩
  · obtain ⟨r', hx, hr⟩ := Prog.exec_adapt.mp hx
    rcases storageVolUpload_exec hv₁ hx with ⟨-, hf₂, hv₂⟩ | ⟨rfl, -⟩
    · rw [or_self] at hv₂
      exact Or.inr (Or.inl ⟨⟨e, rfl⟩, hhalf hf₂, hv₂⟩)
    · cases hr
  · replace hx := Prog.exec_adapt_ok.mp hx
    rcases storageVolUpload_exec hv₁ hx with ⟨⟨e, hr⟩, -⟩ | ⟨-, hf₂, hv₂⟩
    · cases hr
    obtain ⟨rfl, rfl, rfl⟩ := h₃
    refine Or.inr (Or.inr ⟨by simp [hf₂], hv₂, fun path' hr => ?_⟩)
    cases hr
    exact getPath_of_exec hx hpath hv₂

/-- **A run of `createISODisk`.** A path is returned only where the volume was
there before or is filled now. -/
theorem createISODisk_exec {r : Except GoError String}
    (htarget : (s.storage.target cfg.domainPool).isSome)
    (h : Prog.Exec libvirtSem (createISODisk ⟨cfg.domainPool⟩ cfg).run s tr s' r) :
    ImageStep cfg (s.storage.volume cfg.domainPool cfg.isoDiskName) tr
      (s'.storage.volume cfg.domainPool cfg.isoDiskName)
    ∧ ∀ path, r = .ok path → ¬ Interrupted cfg tr
        ∧ s'.storage.getPath ⟨cfg.domainPool, cfg.isoDiskName⟩ = .ok path := by
  have hquiet : ∀ (o : LibvirtOp), o.asksStorage = true →
      o.leavesVolume cfg.domainPool cfg.isoDiskName = true :=
    fun o ho => o.leavesVolume_of_isQuery (LibvirtOp.isQuery_of_asksStorage ho)
  have hno : ∀ {t : List (Event LibvirtSig)},
      t.any (createdVolume cfg.domainPool cfg.isoDiskName) = false → ¬ Interrupted cfg t :=
    fun hc hi => Bool.false_ne_true (hc.symm.trans hi.1)
  rcases Prog.exec_bind_except.mp h with ⟨e, hx, rfl⟩ | ⟨path, s₁, tr₁, tr₂, rfl, hx, h₁⟩
  · obtain ⟨hv, hc, -⟩ := aside_exec (getVolumePath_calls hquiet _ _) hx
    rw [hv]
    exact ⟨.kept hc, fun path hr => nomatch hr⟩
  obtain ⟨-, hc₁, hf₁⟩ := aside_exec (getVolumePath_calls hquiet _ _) hx
  obtain ⟨rfl, hpath⟩ := getVolumePath_exec hx
  rcases hpath path rfl with ⟨rfl, hv, -⟩ | ⟨hne, hget⟩
  swap
  · -- the volume is there
    rw [if_pos hne] at h₁
    obtain ⟨rfl, rfl, rfl⟩ := h₁
    rw [List.append_nil]
    refine ⟨.kept hc₁, fun path' hr => ?_⟩
    cases hr
    exact ⟨hno hc₁, hget⟩
  rw [if_neg (fun h => h rfl)] at h₁
  rcases Prog.exec_bind_except.mp h₁ with ⟨e, hx₂, rfl⟩ | ⟨buff, s₂, tr₂, tr₃, rfl, hx₂, h₂⟩
  · obtain ⟨r', hx₂, -⟩ := Prog.exec_adapt.mp hx₂
    obtain ⟨hv₂, hc₂, -⟩ := aside_exec (writeCloudInitISO_calls hquiet cfg) hx₂
    rw [hv₂]
    exact ⟨.kept (by simp only [List.any_append, hc₁, hc₂]; rfl), fun path hr => nomatch hr⟩
  replace hx₂ := Prog.exec_adapt_ok.mp hx₂
  obtain ⟨hv₂, hc₂, hf₂⟩ := aside_exec (writeCloudInitISO_calls hquiet cfg) hx₂
  rw [hv] at hv₂
  have htarget₂ : (s₂.storage.target cfg.domainPool).isSome := by
    rwa [hx₂.keeps (fun t => t.storage.target cfg.domainPool)
      fun _ _ _ _ hs => libvirtSem_target hs _]
  have hbefore : (tr₁ ++ tr₂).any (createdVolume cfg.domainPool cfg.isoDiskName) = false
      ∧ (tr₁ ++ tr₂).any finishedUpload = false := by
    simp only [List.any_append, hc₁, hc₂, hf₁, hf₂]
    trivial
  rw [hv, ← List.append_assoc]
  rcases fillISODisk_exec htarget₂ hv₂ h₂ with
    ⟨⟨e, rfl⟩, hv₃, hc₃⟩ | ⟨⟨e, rfl⟩, hint, hv₃⟩ | ⟨hf₃, hv₃, hpath₃⟩
  · rw [hv₃]
    exact ⟨.kept (by simp only [List.any_append, hbefore.1, hc₃]; rfl), fun path hr => nomatch hr⟩
  · rw [hv₃]
    refine ⟨.half rfl ⟨?_, ?_⟩, fun path hr => nomatch hr⟩
    · rw [List.any_append, hbefore.1, hint.1]; rfl
    · rw [List.any_append, hbefore.2, hint.2]; rfl
  · have hfin : (tr₁ ++ tr₂ ++ tr₃).any finishedUpload = true := by
      rw [List.any_append, hf₃, Bool.or_true]
    rw [hv₃]
    exact ⟨.whole rfl ⟨tr₁, tr₂, tr₃, _, _, rfl, hx₂⟩ hfin, fun path hr =>
      ⟨fun hi => Bool.false_ne_true (hi.2.symm.trans hfin), hpath₃ path hr⟩⟩

/-! ## An attempt -/

/-- **What an attempt does to the image, and what it defines.** A domain is
defined with the path of the image's volume, and only in an attempt that was
not itself interrupted. -/
def ImageRun (cfg : MachineConfig) (s : Host) (tr : List (Event LibvirtSig)) (s' : Host) : Prop :=
  ImageStep cfg (s.storage.volume cfg.domainPool cfg.isoDiskName) tr
    (s'.storage.volume cfg.domainPool cfg.isoDiskName)
  ∧ ∀ xml ref, (xml, ref) ∈ tr.filterMap definedDomain → ¬ Interrupted cfg tr
    ∧ ∃ diskPath isoPath, xml = machineDomain cfg diskPath isoPath
      ∧ s'.storage.getPath ⟨cfg.domainPool, cfg.isoDiskName⟩ = .ok isoPath

/-- The calls that neither concern the volume nor define a domain. -/
def Aside (cfg : MachineConfig) (o : LibvirtOp) : Prop :=
  o.leavesVolume cfg.domainPool cfg.isoDiskName = true ∧ ∀ xml, o ≠ .domainDefineXML xml

theorem aside_of_isQuery {o : LibvirtOp} (ho : o.isQuery = true) : Aside cfg o :=
  ⟨o.leavesVolume_of_isQuery ho, fun xml h => by subst h; cases ho⟩

/-- A domain that was defined was asked for. -/
theorem definedDomain_op {ev : Event LibvirtSig} {xml : DomainXML} {ref : DomainRef}
    (h : definedDomain ev = some (xml, ref)) : ev.1 = .domainDefineXML xml := by
  unfold definedDomain at h
  split at h
  · cases h
    rfl
  · cases h

/-- What holds of every description a program may define a domain with holds
of those it does. -/
theorem forall_definedDomain {α : Type} {p : Prog LibvirtSig α} {a : α} (Φ : DomainXML → Prop)
    (hp : p.Calls fun o : LibvirtOp => ∀ xml, o = .domainDefineXML xml → Φ xml)
    (h : Prog.Exec libvirtSem p s tr s' a) {xml : DomainXML} {ref : DomainRef}
    (hdef : (xml, ref) ∈ tr.filterMap definedDomain) : Φ xml := by
  obtain ⟨ev, hev, hdef⟩ := List.mem_filterMap.mp hdef
  exact hp.of_mem h hev xml (definedDomain_op hdef)

/-- **The steps before**: a step of an attempt that is aside, and what comes
after it. -/
theorem ImageRun.bind_except {α : Type} {x : LibvirtM α} {f : α → LibvirtM Unit}
    {r : Except GoError Unit} (h : Prog.Exec libvirtSem (x >>= f).run s tr s' r)
    (hx : x.run.Calls (Aside cfg))
    (hf : ∀ a s₁ tr₁ tr₂, Prog.Exec libvirtSem x.run s tr₁ s₁ (.ok a) →
      Prog.Exec libvirtSem (f a).run s₁ tr₂ s' r → ImageRun cfg s₁ tr₂ s') :
    ImageRun cfg s tr s' := by
  have hx' : x.run.Calls fun o : LibvirtOp =>
      o.leavesVolume cfg.domainPool cfg.isoDiskName = true := hx.mono fun _ ho => ho.1
  rcases Prog.exec_bind_except.mp h with ⟨e, h₁, rfl⟩ | ⟨a, s₁, tr₁, tr₂, rfl, h₁, h₂⟩
  · obtain ⟨hv, hc, -⟩ := aside_exec hx' h₁
    exact ⟨hv ▸ .kept hc, fun xml ref hdef =>
      forall_definedDomain (fun _ => False) (hx.mono fun _ ho => ho.2) h₁ hdef |>.elim⟩
  · obtain ⟨hv, hc, hfin⟩ := aside_exec hx' h₁
    obtain ⟨hstep, hdefs⟩ := hf a s₁ tr₁ tr₂ h₁ h₂
    have hnil : ([] : List (Event LibvirtSig)).any
          (createdVolume cfg.domainPool cfg.isoDiskName) = false
        ∧ ([] : List (Event LibvirtSig)).any finishedUpload = false := ⟨rfl, rfl⟩
    refine ⟨?_, fun xml ref hdef => ?_⟩
    · have := hstep.append ⟨hc, hfin⟩ hnil
      rwa [List.append_nil, hv] at this
    · rw [List.filterMap_append, List.mem_append] at hdef
      obtain ⟨hint, hxml⟩ := hdefs xml ref (hdef.resolve_left fun hdef =>
        forall_definedDomain (fun _ => False) (hx.mono fun _ ho => ho.2) h₁ hdef)
      have := (interrupted_append tr₂ ⟨hc, hfin⟩ hnil).not.mpr hint
      rw [List.append_nil] at this
      exact ⟨this, hxml⟩

/-- What is left of `createDomain` once the root disk is there. -/
def attachISODisk (cfg : MachineConfig) (diskPath : String) : LibvirtM Unit := do
  let cloudISOPath ← ExceptT.adapt (.wrap s!"create iso disk {cfg.basePool}")
    (createISODisk ⟨cfg.domainPool⟩ cfg)
  let network ← ExceptT.adapt (.wrap s!"lookup network {cfg.network}")
    (Conn.lookupNetworkByName cfg.network)
  let _ ← Conn.onNetwork network (reserveMachineIP cfg.network cfg.domainName cfg.mac)
  defineAndStart cfg (machineDomain cfg diskPath cloudISOPath)

/-- **Once both volumes are there**, nothing is done to the storage, and no
domain is defined but the one that has them for its disks. -/
theorem afterVolumes_calls (cfg : MachineConfig) (diskPath isoPath : String) : (do
    let network ← ExceptT.adapt (.wrap s!"lookup network {cfg.network}")
      (Conn.lookupNetworkByName cfg.network)
    let _ ← Conn.onNetwork network (reserveMachineIP cfg.network cfg.domainName cfg.mac)
    defineAndStart cfg (machineDomain cfg diskPath isoPath) : LibvirtM Unit).run.Calls
      fun o : LibvirtOp => o.touchesStorage = false
        ∧ ∀ xml, o = .domainDefineXML xml → xml = machineDomain cfg diskPath isoPath := by
  refine .bind_except (.adapt ⟨⟨rfl, fun _ h => nomatch h⟩, fun _ => trivial⟩) fun network =>
    .bind_except (onNetwork_calls (fun _ => ⟨rfl, fun _ h => nomatch h⟩) _) fun _ =>
      defineAndStart_calls ⟨rfl, fun _ h => ?_⟩ (fun _ => ⟨rfl, fun _ h => nomatch h⟩)
        (fun _ => ⟨rfl, fun _ h => nomatch h⟩)
  cases h
  rfl

theorem attachISODisk_exec {diskPath : String} {r : Except GoError Unit}
    (htarget : (s.storage.target cfg.domainPool).isSome)
    (h : Prog.Exec libvirtSem (attachISODisk cfg diskPath).run s tr s' r) :
    ImageRun cfg s tr s' := by
  have hiso : ∀ {s₁ : Host} {t : List (Event LibvirtSig)} {r : Except GoError String}
      {xml : DomainXML} {ref : DomainRef},
      Prog.Exec libvirtSem (createISODisk ⟨cfg.domainPool⟩ cfg).run s t s₁ r →
      (xml, ref) ∉ t.filterMap definedDomain := fun h hdef =>
    forall_definedDomain (fun _ => False)
      (createISODisk_calls (fun _ ho xml h => by subst h; cases ho)
        (fun _ _ _ h => nomatch h) (fun _ ho xml h => by subst h; cases ho)) h hdef
  rcases Prog.exec_bind_except.mp h with ⟨e, h₁, rfl⟩ | ⟨isoPath, s₁, tr₁, tr₂, rfl, h₁, h₂⟩
  · obtain ⟨r', h₁, -⟩ := Prog.exec_adapt.mp h₁
    exact ⟨(createISODisk_exec htarget h₁).1, fun xml ref hdef => absurd hdef (hiso h₁)⟩
  replace h₁ := Prog.exec_adapt_ok.mp h₁
  obtain ⟨hstep, hpath⟩ := createISODisk_exec htarget h₁
  obtain ⟨hint, hpath⟩ := hpath isoPath rfl
  -- what comes after the image is attached leaves its volume alone
  have hcalls := afterVolumes_calls cfg diskPath isoPath
  obtain ⟨hv, hc, hfin⟩ := aside_exec
    (hcalls.mono fun _ ho => LibvirtOp.leavesVolume_of_touchesStorage _ ho.1) h₂
  have hnil : ([] : List (Event LibvirtSig)).any
        (createdVolume cfg.domainPool cfg.isoDiskName) = false
      ∧ ([] : List (Event LibvirtSig)).any finishedUpload = false := ⟨rfl, rfl⟩
  refine ⟨hv ▸ hstep.append hnil ⟨hc, hfin⟩, fun xml ref hdef => ?_⟩
  rw [List.filterMap_append, List.mem_append] at hdef
  refine ⟨(interrupted_append tr₁ hnil ⟨hc, hfin⟩).not.mpr hint, diskPath, isoPath,
    forall_definedDomain (· = machineDomain cfg diskPath isoPath) (hcalls.mono fun _ ho => ho.2)
      h₂ (hdef.resolve_left (hiso h₁)), ?_⟩
  obtain ⟨_, v, -, hvol, -⟩ := (s₁.storage.getPath_eq_ok).mp hpath
  exact getPath_of_exec h₂ hpath (hv.trans hvol)

/-- **Every attempt is such a run.** Only the step for the image touches its
volume, and only the last step defines the domain. -/
theorem createDomain_exec {r : Except GoError Unit}
    (htarget : (s.storage.target cfg.domainPool).isSome)
    (h : Prog.Exec libvirtSem (createDomain cfg).run s tr s' r) : ImageRun cfg s tr s' := by
  have hq : ∀ o : LibvirtOp, o.asksStorage = true → Aside cfg o :=
    fun _ ho => aside_of_isQuery (LibvirtOp.isQuery_of_asksStorage ho)
  refine .bind_except h (.adapt ⟨hq _ rfl, fun _ => trivial⟩) fun pool s₁ _ _ h₁ h => ?_
  obtain ⟨hs, -⟩ := Prog.exec_perform.mp (Prog.exec_adapt_ok.mp h₁)
  obtain rfl := libvirtSem_query hs rfl
  obtain ⟨rfl, -⟩ := libvirtSem_lookupStoragePoolByName_ok hs
  refine .bind_except h (.adapt ⟨hq _ rfl, fun _ => trivial⟩) fun basePool s₂ _ _ h₂ h => ?_
  refine .bind_except h (.adapt (createRootDisk_calls hq fun xml hname => ?_))
    fun diskPath s₃ _ _ h₃ h => ?_
  · refine ⟨?_, fun _ h => nomatch h⟩
    simp [LibvirtOp.leavesVolume, hname, cfg.domainDiskName_ne_isoDiskName]
  have htarget₃ : (s₃.storage.target cfg.domainPool).isSome := by
    rwa [h₃.keeps (fun t => t.storage.target cfg.domainPool)
        fun _ _ _ _ hs => libvirtSem_target hs _,
      h₂.keeps (fun t => t.storage.target cfg.domainPool)
        fun _ _ _ _ hs => libvirtSem_target hs _]
  exact attachISODisk_exec htarget₃ h

/-! ### When errors come by value

That a volume is not there is an error of `getVolumePath` then. So neither
volume is ever created: an attempt takes both of them as it finds them, or
fails before it has changed anything. -/

/-- A volume that is to be there in the end, whichever way it would be made. -/
theorem getOrCreate_value {pool : StoragePoolRef} {name : String} {create : LibvirtM String}
    {r : Except GoError String} (hform : s.errors = .value)
    (h : Prog.Exec libvirtSem (do
      let volumePath ← getVolumePath pool name
      if volumePath ≠ "" then pure volumePath else create : LibvirtM String).run s tr s' r) :
    s' = s ∧ ∀ path, r = .ok path → s.storage.getPath ⟨pool.name, name⟩ = .ok path := by
  rcases Prog.exec_bind_except.mp h with ⟨e, hx, rfl⟩ | ⟨path, s₁, tr₁, tr₂, rfl, hx, h₁⟩
  · exact ⟨(getVolumePath_exec hx).1, nofun⟩
  obtain ⟨rfl, hpath⟩ := getVolumePath_exec hx
  rcases hpath path rfl with ⟨-, -, hpointer⟩ | ⟨hne, hget⟩
  · cases hform.symm.trans hpointer
  rw [if_pos hne] at h₁
  obtain ⟨-, rfl, rfl⟩ := h₁
  refine ⟨rfl, fun path' hr => ?_⟩
  cases hr
  exact hget

theorem createRootDisk_value {basePool domainPool : StoragePoolRef} {r : Except GoError String}
    (hform : s.errors = .value)
    (h : Prog.Exec libvirtSem (createRootDisk basePool domainPool cfg).run s tr s' r) :
    s' = s ∧ ∀ path, r = .ok path →
      s.storage.getPath ⟨domainPool.name, cfg.domainDiskName⟩ = .ok path :=
  getOrCreate_value hform h

theorem createISODisk_value {domainPool : StoragePoolRef} {r : Except GoError String}
    (hform : s.errors = .value)
    (h : Prog.Exec libvirtSem (createISODisk domainPool cfg).run s tr s' r) :
    s' = s ∧ ∀ path, r = .ok path →
      s.storage.getPath ⟨domainPool.name, cfg.isoDiskName⟩ = .ok path :=
  getOrCreate_value hform h

/-- A run that fails, with nothing changed and no domain defined. -/
def FailsAtOnce (s : Host) (tr : List (Event LibvirtSig)) (s' : Host)
    (r : Except GoError Unit) : Prop :=
  (∃ e, r = .error e) ∧ s' = s ∧ tr.filterMap definedDomain = []

/-- A step that changes nothing, and what comes after it. -/
theorem FailsAtOnce.bind_except {α : Type} {x : LibvirtM α} {f : α → LibvirtM Unit}
    {r : Except GoError Unit} (h : Prog.Exec libvirtSem (x >>= f).run s tr s' r)
    (hx : x.run.Calls fun o : LibvirtOp => ∀ xml, o ≠ .domainDefineXML xml)
    (hsame : ∀ tr₁ s₁ r₁, Prog.Exec libvirtSem x.run s tr₁ s₁ r₁ → s₁ = s) :
    FailsAtOnce s tr s' r ∨ ∃ a tr₁ tr₂, Prog.Exec libvirtSem x.run s tr₁ s (.ok a)
      ∧ Prog.Exec libvirtSem (f a).run s tr₂ s' r
      ∧ tr.filterMap definedDomain = tr₂.filterMap definedDomain := by
  have hnone {s₁ : Host} {t : List (Event LibvirtSig)} {r₁ : Except GoError α}
      (h₁ : Prog.Exec libvirtSem x.run s t s₁ r₁) : t.filterMap definedDomain = [] := by
    refine List.eq_nil_iff_forall_not_mem.mpr ?_
    rintro ⟨xml, ref⟩ hdef
    exact forall_definedDomain (fun _ => False) hx h₁ hdef
  rcases Prog.exec_bind_except.mp h with ⟨e, h₁, rfl⟩ | ⟨a, s₁, tr₁, tr₂, rfl, h₁, h₂⟩
  · exact Or.inl ⟨⟨e, rfl⟩, hsame _ _ _ h₁, hnone h₁⟩
  · obtain rfl := hsame _ _ _ h₁
    refine Or.inr ⟨a, tr₁, tr₂, h₁, h₂, ?_⟩
    rw [List.filterMap_append, hnone h₁, List.nil_append]

/-- **An attempt, when errors come by value**: it fails at once, or both
volumes are there and a domain is defined with them as they are. -/
theorem createDomain_value {r : Except GoError Unit} (hform : s.errors = .value)
    (h : Prog.Exec libvirtSem (createDomain cfg).run s tr s' r) :
    FailsAtOnce s tr s' r
    ∨ s'.storage = s.storage ∧ ∃ diskPath isoPath,
        s.storage.getPath ⟨cfg.domainPool, cfg.domainDiskName⟩ = .ok diskPath
        ∧ s.storage.getPath ⟨cfg.domainPool, cfg.isoDiskName⟩ = .ok isoPath
        ∧ ∀ xml ref, (xml, ref) ∈ tr.filterMap definedDomain →
          xml = machineDomain cfg diskPath isoPath := by
  have hquery : ∀ o : LibvirtOp, o.asksStorage = true → ∀ xml, o ≠ .domainDefineXML xml :=
    fun _ ho xml heq => by subst heq; cases ho
  -- the pools
  have hpool {name : String} {t₁ : List (Event LibvirtSig)} {s₁ : Host}
      {r₁ : Except GoError StoragePoolRef} {f : GoError → GoError} (hx : Prog.Exec libvirtSem
        (ExceptT.adapt f (Conn.lookupStoragePoolByName name)).run s t₁ s₁ r₁) : s₁ = s := by
    obtain ⟨r', hx, -⟩ := Prog.exec_adapt.mp hx
    exact libvirtSem_query (Prog.exec_perform.mp hx).1 rfl
  rcases FailsAtOnce.bind_except h (.adapt ⟨hquery _ rfl, fun _ => trivial⟩) fun _ _ _ => hpool with
    hfails | ⟨pool, t₁, tr₁, hx, h₁, htr₁⟩
  · exact Or.inl hfails
  obtain ⟨rfl, -⟩ := libvirtSem_lookupStoragePoolByName_ok
    (Prog.exec_perform.mp (Prog.exec_adapt_ok.mp hx)).1
  rcases FailsAtOnce.bind_except h₁ (.adapt ⟨hquery _ rfl, fun _ => trivial⟩)
    fun _ _ _ => hpool with hfails | ⟨basePool, t₂, tr₂, hx, h₂, htr₂⟩
  · exact Or.inl ⟨hfails.1, hfails.2.1, htr₁.trans hfails.2.2⟩
  -- the volumes
  rcases FailsAtOnce.bind_except h₂ (.adapt (createRootDisk_calls hquery fun _ _ _ h => nomatch h))
    (fun _ _ _ hx => by
      obtain ⟨r', hx, -⟩ := Prog.exec_adapt.mp hx
      exact (createRootDisk_value hform hx).1) with hfails | ⟨diskPath, t₃, tr₃, hx, h₃, htr₃⟩
  · exact Or.inl ⟨hfails.1, hfails.2.1, (htr₁.trans htr₂).trans hfails.2.2⟩
  have hdisk := (createRootDisk_value hform (Prog.exec_adapt_ok.mp hx)).2 diskPath rfl
  rcases FailsAtOnce.bind_except h₃ (.adapt (createISODisk_calls hquery (fun _ _ _ h => nomatch h)
      fun _ ho xml heq => by subst heq; cases ho))
    (fun _ _ _ hx => by
      obtain ⟨r', hx, -⟩ := Prog.exec_adapt.mp hx
      exact (createISODisk_value hform hx).1) with hfails | ⟨isoPath, t₄, tr₄, hx, h₄, htr₄⟩
  · exact Or.inl ⟨hfails.1, hfails.2.1, ((htr₁.trans htr₂).trans htr₃).trans hfails.2.2⟩
  have hiso := (createISODisk_value hform (Prog.exec_adapt_ok.mp hx)).2 isoPath rfl
  -- what comes after leaves the storage alone
  have hcalls := afterVolumes_calls cfg diskPath isoPath
  refine Or.inr ⟨hcalls.keeps Host.storage (fun _ _ _ _ ho hs => libvirtSem_storage hs ho.1) h₄,
    diskPath, isoPath, hdisk, hiso, fun xml ref hdef => ?_⟩
  rw [htr₁, htr₂, htr₃, htr₄] at hdef
  exact forall_definedDomain (· = machineDomain cfg diskPath isoPath)
    (hcalls.mono fun _ ho => ho.2) h₄ hdef

end Exec

/-! ## Any number of attempts -/

/-- **Attempts to create a machine**, one after the other, with the trace of
each. Any call of any attempt may fail, and an attempt may follow a successful
one. -/
inductive Attempts (cfg : MachineConfig) (s₀ : Host) : List (List (Event LibvirtSig)) → Host → Prop
  | nil : Attempts cfg s₀ [] s₀
  | snoc {trs : List (List (Event LibvirtSig))} {s s' : Host} {tr : List (Event LibvirtSig)}
      {r : Except GoError Unit} (h : Attempts cfg s₀ trs s)
      (he : Prog.Exec libvirtSem (createDomain cfg).run s tr s' r) :
      Attempts cfg s₀ (trs ++ [tr]) s'

/-- The volume of the image holds an image that was written for the
configuration in the course of the attempts. -/
def Intact (cfg : MachineConfig) (trs : List (List (Event LibvirtSig))) (s : Host) : Prop :=
  ∃ v image, s.storage.volume cfg.domainPool cfg.isoDiskName = some v
    ∧ v.content = some image ∧ ∃ t ∈ trs, Produced cfg image t

/-- **What is known of the volume of the image** after some attempts: its
content is undefined exactly when one of them was interrupted. An attempt that
comes later does not repair it, since it finds the volume there. -/
inductive ImageSound (cfg : MachineConfig) (trs : List (List (Event LibvirtSig))) :
    Option Volume → Prop
  | absent (h : ∀ t ∈ trs, ¬ Interrupted cfg t) : ImageSound cfg trs none
  | half {v : Volume} (hv : v.content = none) (h : ∃ t ∈ trs, Interrupted cfg t) :
      ImageSound cfg trs (some v)
  | whole {v : Volume} {image : Bytes} (hv : v.content = some image)
      (hprod : ∃ t ∈ trs, Produced cfg image t) (h : ∀ t ∈ trs, ¬ Interrupted cfg t) :
      ImageSound cfg trs (some v)

section Attempts

variable {cfg : MachineConfig} {trs : List (List (Event LibvirtSig))}
  {tr : List (Event LibvirtSig)} {s₀ s s' : Host}

/-- One more attempt. -/
theorem ImageSound.step {v v' : Option Volume} (h : ImageSound cfg trs v)
    (hstep : ImageStep cfg v tr v') : ImageSound cfg (trs ++ [tr]) v' := by
  have hsnoc : ¬ Interrupted cfg tr → (∀ t ∈ trs, ¬ Interrupted cfg t) →
      ∀ t ∈ trs ++ [tr], ¬ Interrupted cfg t := fun htr htrs t ht => by
    rcases List.mem_append.mp ht with ht | ht
    · exact htrs t ht
    · exact List.mem_singleton.mp ht ▸ htr
  cases hstep with
  | kept hc =>
    have htr : ¬ Interrupted cfg tr := fun hi => Bool.false_ne_true (hc.symm.trans hi.1)
    cases h with
    | absent h => exact .absent (hsnoc htr h)
    | half hv h =>
      obtain ⟨t, ht, hi⟩ := h
      exact .half hv ⟨t, List.mem_append_left _ ht, hi⟩
    | whole hv hprod h =>
      obtain ⟨t, ht, hp⟩ := hprod
      exact .whole hv ⟨t, List.mem_append_left _ ht, hp⟩ (hsnoc htr h)
  | half hv hi => exact .half hv ⟨tr, by simp, hi⟩
  | whole hv hprod hfin =>
    cases h with
    | absent h =>
      exact .whole hv ⟨tr, by simp, hprod⟩
        (hsnoc (fun hi => Bool.false_ne_true (hi.2.symm.trans hfin)) h)

/-- **After any number of attempts** the volume is absent, half made or
filled, and which of these it is can be told from the traces. -/
theorem Attempts.sound (htarget : (s₀.storage.target cfg.domainPool).isSome)
    (hv : s₀.storage.volume cfg.domainPool cfg.isoDiskName = none)
    (h : Attempts cfg s₀ trs s) :
    (s.storage.target cfg.domainPool).isSome
    ∧ ImageSound cfg trs (s.storage.volume cfg.domainPool cfg.isoDiskName) := by
  induction h with
  | nil => exact ⟨htarget, hv ▸ .absent fun t ht => nomatch ht⟩
  | snoc h he ih =>
    refine ⟨?_, ih.2.step (createDomain_exec ih.1 he).1⟩
    rw [he.keeps (fun t => t.storage.target cfg.domainPool)
      fun _ _ _ _ hs => libvirtSem_target hs _]
    exact ih.1

/-- A volume that is there is intact exactly when no attempt was
interrupted. -/
theorem ImageSound.intact_iff
    (h : ImageSound cfg trs (s.storage.volume cfg.domainPool cfg.isoDiskName))
    (hsome : (s.storage.volume cfg.domainPool cfg.isoDiskName).isSome) :
    Intact cfg trs s ↔ ∀ t ∈ trs, ¬ Interrupted cfg t := by
  obtain ⟨v, hv⟩ := Option.isSome_iff_exists.mp hsome
  rw [hv] at h
  cases h with
  | half hc hi =>
    refine iff_of_false ?_ (by simpa using hi)
    rintro ⟨v', image, hv', hc', -⟩
    cases hv.symm.trans hv'
    cases hc.symm.trans hc'
  | whole hc hprod hno => exact iff_of_true ⟨v, _, hv, hc, hprod⟩ hno

/-- **The domain is defined with the image of the configuration exactly when
no earlier attempt was interrupted.** The domain pool holds no volume of the
machine at first. Any call of any attempt may fail. The form of the errors is
left open: with errors by value there is no such definition to speak of, since
no attempt makes the root disk. -/
theorem cloudInit_intact_iff {r : Except GoError Unit} {xml : DomainXML} {ref : DomainRef}
    (htarget : (s₀.storage.target cfg.domainPool).isSome)
    (hv : ∀ name ∈ [cfg.domainDiskName, cfg.isoDiskName],
      s₀.storage.volume cfg.domainPool name = none)
    (hattempts : Attempts cfg s₀ trs s)
    (he : Prog.Exec libvirtSem (createDomain cfg).run s tr s' r)
    (hdef : (xml, ref) ∈ tr.filterMap definedDomain) :
    (∃ disk ∈ xml.disks, disk.device = "cdrom"
      ∧ s'.storage.getPath ⟨cfg.domainPool, cfg.isoDiskName⟩ = .ok disk.file)
    ∧ (Intact cfg (trs ++ [tr]) s' ↔ ∀ t ∈ trs, ¬ Interrupted cfg t) := by
  replace hv := hv cfg.isoDiskName (by simp)
  obtain ⟨hint, diskPath, isoPath, rfl, hpath⟩ :=
    (createDomain_exec (hattempts.sound htarget hv).1 he).2 xml ref hdef
  refine ⟨⟨⟨"cdrom", "qemu", "raw", isoPath, "sda", "sata", true⟩, ?_, rfl, hpath⟩, ?_⟩
  · exact List.mem_append_right _ (List.mem_singleton_self _)
  · obtain ⟨_, v, -, hvol, -⟩ := (s'.storage.getPath_eq_ok).mp hpath
    rw [((hattempts.snoc he).sound htarget hv).2.intact_iff
      (Option.isSome_iff_exists.mpr ⟨v, hvol⟩)]
    constructor
    · exact fun h t ht => h t (List.mem_append_left _ ht)
    · intro h t ht
      rcases List.mem_append.mp ht with ht | ht
      · exact h t ht
      · exact List.mem_singleton.mp ht ▸ hint

/-- No attempt changes a volume, when errors come by value. -/
theorem Attempts.storage_eq (hform : s₀.errors = .value) (h : Attempts cfg s₀ trs s) :
    s.errors = .value ∧ s.storage = s₀.storage := by
  induction h with
  | nil => exact ⟨hform, rfl⟩
  | snoc _ he ih =>
    refine ⟨(exec_errors he).trans ih.1, ?_⟩
    rcases createDomain_value ih.1 he with ⟨-, rfl, -⟩ | ⟨hstorage, -⟩
    · exact ih.2
    · exact hstorage.trans ih.2

/-- **The image stays what it is across attempts**, with the errors the binding
hands over. From any host: no attempt changes a volume, and a domain is defined
only with the volume of the image that was there at the start. So on a pool
that holds no volume of the machine no attempt gets as far as defining the
domain, each of them fails, and whatever an attempt defines a domain with is
intact. Any call of any attempt may fail. -/
theorem cloudInit_intact {r : Except GoError Unit} (hform : s₀.errors = .value)
    (hattempts : Attempts cfg s₀ trs s)
    (he : Prog.Exec libvirtSem (createDomain cfg).run s tr s' r) :
    s'.storage = s₀.storage
    ∧ (∀ xml ref, (xml, ref) ∈ tr.filterMap definedDomain →
      (s₀.storage.volume cfg.domainPool cfg.isoDiskName).isSome
      ∧ ∃ disk ∈ xml.disks, disk.device = "cdrom"
        ∧ s'.storage.getPath ⟨cfg.domainPool, cfg.isoDiskName⟩ = .ok disk.file)
    ∧ ((∀ name ∈ [cfg.domainDiskName, cfg.isoDiskName],
        s₀.storage.volume cfg.domainPool name = none) →
      (∃ e, r = .error e) ∧ ∀ xml ref, (xml, ref) ∈ tr.filterMap definedDomain →
        Intact cfg (trs ++ [tr]) s') := by
  obtain ⟨hvalue, hstorage⟩ := hattempts.storage_eq hform
  have hsome {path : String} (hget : s.storage.getPath ⟨cfg.domainPool, cfg.isoDiskName⟩
      = .ok path) : (s₀.storage.volume cfg.domainPool cfg.isoDiskName).isSome := by
    obtain ⟨_, v, -, hv, -⟩ := (s.storage.getPath_eq_ok).mp hget
    rw [← hstorage]
    exact Option.isSome_of_eq_some hv
  rcases createDomain_value hvalue he with ⟨hfails, rfl, hnone⟩ |
    ⟨hkept, diskPath, isoPath, -, hget, hdefs⟩
  · refine ⟨hstorage, fun xml ref hdef => ?_, fun _ => ⟨hfails, fun xml ref hdef => ?_⟩⟩
    · rw [hnone] at hdef
      cases hdef
    · rw [hnone] at hdef
      cases hdef
  · refine ⟨hkept.trans hstorage, fun xml ref hdef => ⟨hsome hget, ?_⟩, fun hv => ?_⟩
    · obtain rfl := hdefs xml ref hdef
      refine ⟨⟨"cdrom", "qemu", "raw", isoPath, "sda", "sata", true⟩, ?_, rfl, hkept ▸ hget⟩
      exact List.mem_append_right _ (List.mem_singleton_self _)
    · have := hsome hget
      rw [hv cfg.isoDiskName (by simp)] at this
      cases this

end Attempts

/-! ## Runs -/

/-- An attempt on given answers; once they are used up, all goes well. -/
def attempt (s : Host) (cs : List LibvirtChoice) :
    Option (List (Event LibvirtSig) × Host × Except GoError Unit) :=
  Prog.runWith libvirtStep faultless (createDomain nodeConfig).run s cs

/-- The answers of an attempt in which the path of the new volume of the image
cannot be had. -/
def interrupting : List LibvirtChoice := List.replicate 23 faultless ++ [{ fault := some 38 }]

/-- How many domains an attempt defined, and what the volume of the image
holds then. -/
def outcome (x : List (Event LibvirtSig) × Host × Except GoError Unit) :
    ℕ × Option (Option Bytes) :=
  ((x.1.filterMap definedDomain).length,
   (x.2.1.storage.volume nodeConfig.domainPool nodeConfig.isoDiskName).map Volume.content)

/-- On a host with both volumes a domain is defined with the image that is
there; on a fresh one, an attempt that follows another fails like it. -/
theorem cloudInit_intact_nodeConfig :
    (∃ tr s' r xml ref, Prog.Exec libvirtSem (createDomain nodeConfig).run stockedHost tr s' r
      ∧ (xml, ref) ∈ tr.filterMap definedDomain
      ∧ (s'.storage.volume "vms" "cloudinit-default-node-1.iso").map Volume.content
        = some (some [1, 2, 3])
      ∧ ∃ disk ∈ xml.disks, disk.device = "cdrom"
        ∧ s'.storage.getPath ⟨"vms", "cloudinit-default-node-1.iso"⟩ = .ok disk.file)
    ∧ ∃ tr₁ s tr s' e, Attempts nodeConfig freshHost [tr₁] s
      ∧ Prog.Exec libvirtSem (createDomain nodeConfig).run s tr s' (.error e)
      ∧ s'.storage = freshHost.storage := by
  constructor
  · have hrun : (attempt stockedHost []).map outcome = some (1, some (some [1, 2, 3])) := by
      decide +kernel
    obtain ⟨⟨tr, s', r⟩, hx, hout⟩ := Option.map_eq_some_iff.mp hrun
    obtain ⟨⟨xml, ref⟩, hdef⟩ := List.length_eq_one_iff.mp (congrArg Prod.fst hout)
    have he := Prog.exec_of_runWith hx
    have hmem : (xml, ref) ∈ tr.filterMap definedDomain := hdef ▸ List.mem_singleton_self _
    exact ⟨tr, s', r, xml, ref, he, hmem, congrArg Prod.snd hout,
      ((cloudInit_intact rfl .nil he).2.1 xml ref hmem).2⟩
  · have hrun : ((attempt freshHost []).bind fun x => attempt x.2.1 []).isSome = true := by
      decide +kernel
    obtain ⟨⟨tr, s', r⟩, hrun⟩ := Option.isSome_iff_exists.mp hrun
    obtain ⟨⟨tr₁, s, r₁⟩, h₁, h₂⟩ := Option.bind_eq_some_iff.mp hrun
    have hattempts : Attempts nodeConfig freshHost [tr₁] s :=
      .snoc .nil (Prog.exec_of_runWith h₁)
    obtain ⟨hstorage, -, hfresh⟩ := cloudInit_intact rfl hattempts (Prog.exec_of_runWith h₂)
    obtain ⟨⟨e, rfl⟩, -⟩ := hfresh (by simp; exact ⟨rfl, rfl⟩)
    exact ⟨tr₁, s, tr, s', e, hattempts, Prog.exec_of_runWith h₂, hstorage⟩

/-- **A domain is defined with an image nobody wrote**, once errors are
recognised. The first attempt creates the volume and fails to learn its path;
the second one finds the volume and goes on. -/
theorem cloudInit_not_intact : ∃ trs s tr s' r xml ref,
    (pointerHost.storage.target nodeConfig.domainPool).isSome
    ∧ (∀ name, pointerHost.storage.volume nodeConfig.domainPool name = none)
    ∧ Attempts nodeConfig pointerHost trs s
    ∧ Prog.Exec libvirtSem (createDomain nodeConfig).run s tr s' r
    ∧ (xml, ref) ∈ tr.filterMap definedDomain
    ∧ ∃ v, s'.storage.volume nodeConfig.domainPool nodeConfig.isoDiskName = some v
      ∧ v.content = none := by
  have hrun : ((attempt pointerHost interrupting).bind fun x => (attempt x.2.1 []).map outcome)
      = some (1, some none) := by decide +kernel
  obtain ⟨⟨tr₁, s, r₁⟩, h₁, hrun⟩ := Option.bind_eq_some_iff.mp hrun
  obtain ⟨⟨tr, s', r⟩, h₂, hout⟩ := Option.map_eq_some_iff.mp hrun
  obtain ⟨⟨xml, ref⟩, hdef⟩ := List.length_eq_one_iff.mp (congrArg Prod.fst hout)
  obtain ⟨v, hv, hc⟩ := Option.map_eq_some_iff.mp (congrArg Prod.snd hout)
  exact ⟨[tr₁], s, tr, s', r, xml, ref, rfl, fun _ => rfl, .snoc .nil (Prog.exec_of_runWith h₁),
    Prog.exec_of_runWith h₂, hdef ▸ List.mem_singleton_self _, v, hv, hc⟩

end LibvirtProvider
