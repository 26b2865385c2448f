import CareDirect.Cells.Table

/-!
# Whose picture a cell shows

A cell keeps its picture when it is bound to another row, and a completed download writes into the cell that it has
captured, whatever row that shows by then. So the pictures are right in a run exactly when its steps hand out no cell
with a foreign picture and complete no download into a cell bound to another address (`pictures_right_iff`), and in
every run exactly when the rows that can be displayed leave no room for a foreign picture (`Uniform`). A row whose
address the storage refuses stops the app instead.
-/

namespace CareDirect.Cells

open Directory PartialRun

/-! ## Cells -/

/-- All cells after a write to one of them. -/
theorem forall_mem_modify {β : Type} {P : β → Prop} {f : β → β} {l : List β} {i : ℕ} (h : ∀ x ∈ l, P x) :
    (∀ y ∈ l.modify i f, P y) ↔ ∀ x, l[i]? = some x → P (f x) := by
  constructor
  · intro hall x hx
    refine hall (f x) (List.mem_iff_getElem?.2 ⟨i, ?_⟩)
    rw [List.getElem?_modify_eq, hx]
    rfl
  · intro hi y hy
    obtain ⟨j, hj⟩ := List.mem_iff_getElem?.1 hy
    rw [List.getElem?_modify] at hj
    obtain ⟨x, hx, rfl⟩ := Option.map_eq_some_iff.1 hj
    split
    · rename_i hij
      exact hi x (hij ▸ hx)
    · exact h x (List.mem_of_getElem? hx)

section

variable {α L : Type} (storage : Storage) (labels : α → L) (url : α → Option String) (rows : List α)

/-- The address of a row. -/
def urlAt (row : ℕ) : Option String := rows[row]?.bind url

/-- A cell that is bound to a row shows no picture, or the one of the row. -/
def CellRight (cell : Cell L) : Prop :=
  ∀ row picture, cell.row = some row → cell.lblImage = some picture → urlAt url rows row = some picture

def Right (table : Table L) : Prop := ∀ cell ∈ table.cells, CellRight url rows cell

/-- A cell that is handed out has no picture, or the one of its new row; a downloaded picture goes to a cell that is not
on screen, or is bound to a row with that address. -/
def Keeps (table : Table L) : Event → Prop
  | .cellForRowAt row reused => ∀ cell c picture, reused = some cell → table.cells[cell]? = some c → c.row = none →
      c.lblImage = some picture → urlAt url rows row = some picture
  | .didEndDisplaying _ => True
  | .downloaded i error data => error = false → data = some true → ∀ download, table.downloads[i]? = some download →
      ∀ c row, table.cells[download.cell]? = some c → c.row = some row → urlAt url rows row = some download.url

variable {storage labels url rows} {table table' : Table L} {e : Event} {es : List Event}

/-- Binding a cell to a row: its address is not refused. -/
theorem cellForRowAt_some {row : ℕ} {reused : Option ℕ}
    (h : table.cellForRowAt storage labels url rows row reused = some table') :
    ∃ model downloads, rows[row]? = some model ∧ storage.takes (url model) = true ∧ table' =
      { cells := (table.dequeueReusableCell reused).2.cells.modify (table.dequeueReusableCell reused).1
          fun c => { c with labels := some (labels model), row := some row }
        downloads } ∧
      (downloads = table.downloads ∨ ∃ picture, url model = some picture ∧
        downloads = table.downloads ++ [⟨(table.dequeueReusableCell reused).1, picture⟩]) := by
  obtain ⟨model, hmodel, h⟩ := Option.bind_eq_some_iff.1 h
  have hdownloads : (table.dequeueReusableCell reused).2.downloads = table.downloads := by cases reused <;> rfl
  refine ⟨model, table'.downloads, hmodel, ?_⟩
  simp only [hdownloads] at h
  split at h
  · rename_i picture hpicture
    obtain ⟨_, hreference, hfilled⟩ := Option.bind_eq_some_iff.1 h
    obtain ⟨haccepts, rfl⟩ := Storage.reference_eq_some_iff.1 hreference
    cases hfilled
    exact ⟨hpicture ▸ haccepts, rfl, .inr ⟨picture, hpicture, rfl⟩⟩
  · rename_i hnone
    cases h
    exact ⟨hnone ▸ Storage.takes_none, rfl, .inl rfl⟩

/-- Which rows stop the app. -/
theorem cellForRowAt_eq_none_iff {row : ℕ} {reused : Option ℕ} {model : α} (hmodel : rows[row]? = some model) :
    table.cellForRowAt storage labels url rows row reused = none ↔ storage.takes (url model) = false := by
  simp only [Table.cellForRowAt, hmodel, Option.bind_eq_bind, Option.bind_some]
  cases hurl : url model with
  | none => simp
  | some picture =>
    rw [Storage.takes_some, ← Storage.reference_eq_none_iff]
    cases hreference : storage.reference picture with
    | none => simp [hreference]
    | some imageStorageRef => simp [hreference]

/-- Handing out a cell. -/
theorem right_cellForRowAt (hright : Right url rows table) {row : ℕ} {reused : Option ℕ} (hfree : table.isFree reused)
    (h : table.cellForRowAt storage labels url rows row reused = some table') :
    Right url rows table' ↔ Keeps url rows table (.cellForRowAt row reused) := by
  obtain ⟨model, downloads, -, -, rfl, -⟩ := cellForRowAt_some h
  cases reused with
  | none =>
    have hnew : ∀ c ∈ table.cells ++ [({} : Cell L)], CellRight url rows c := by
      intro c hc
      rcases List.mem_append.1 hc with hc | hc
      · exact hright c hc
      · rw [List.mem_singleton.1 hc]
        intro _ _ hrow
        cases hrow
    refine iff_of_true ((forall_mem_modify hnew).2 fun c hc _ picture _ hpicture => ?_) nofun
    rw [Table.dequeueReusableCell, List.getElem?_concat_length] at hc
    cases hc
    cases hpicture
  | some cell =>
    refine (forall_mem_modify hright).trans ?_
    simp only [Keeps, CellRight, Table.dequeueReusableCell]
    constructor
    · intro hall cell' c picture hcell hc _ hpicture
      cases hcell
      exact hall c hc row picture rfl hpicture
    · intro hkeeps c hc row' picture hrow hpicture
      cases hrow
      have hunbound : c.row = none := by simpa [Table.isFree, hc] using hfree
      exact hkeeps cell c picture rfl hc hunbound hpicture

/-- Completing a download. -/
theorem right_completion (hright : Right url rows table) (download : Download) (error : Bool) (data : Option Bool) :
    Right url rows (table.completion download error data) ↔ (error = false → data = some true → ∀ c row,
      table.cells[download.cell]? = some c → c.row = some row → urlAt url rows row = some download.url) := by
  unfold Table.completion
  split
  · rename_i herror
    exact iff_of_true hright fun hno => by simp [herror] at hno
  rename_i herror
  rw [Bool.not_eq_true] at herror
  split
  · rename_i isImage
    refine (forall_mem_modify hright).trans ?_
    constructor
    · intro hall _ hdata c row hc hrow
      cases hdata
      exact hall c hc row _ hrow rfl
    · intro hkeeps c hc row picture hrow hpicture
      cases isImage with
      | false => cases hpicture
      | true =>
        cases hpicture
        exact hkeeps herror rfl c row hc hrow
  · exact iff_of_true hright fun _ hdata => by cases hdata

/-- What one step needs. -/
theorem right_step (hright : Right url rows table) (h : table.step storage labels url rows e = some table') :
    Right url rows table' ↔ Keeps url rows table e := by
  cases e with
  | cellForRowAt row reused =>
    simp only [Table.step] at h
    split at h
    · rename_i hfree
      exact right_cellForRowAt hright hfree h
    · rename_i hfree
      cases h
      refine iff_of_true hright fun cell c picture hreused hc hunbound => ?_
      simp [Table.isFree, hreused, hc, hunbound] at hfree
  | didEndDisplaying cell =>
    cases h
    refine iff_of_true ((forall_mem_modify hright).2 fun c _ row picture hrow => ?_) trivial
    cases hrow
  | downloaded i error data =>
    simp only [Table.step] at h
    unfold Keeps
    split at h
    · rename_i download hdownload
      cases h
      have hrest : Right url rows { table with downloads := table.downloads.eraseIdx i } := hright
      refine (right_completion hrest download error data).trans ?_
      simp only [hdownload, Option.some.injEq, forall_eq']
    · rename_i hnone
      cases h
      simp only [hnone]
      exact iff_of_true hright nofun

/-! ## Runs -/

/-- Throughout the run the pictures are right. -/
def RightThroughout (step : Table L → Event → Option (Table L)) (url : α → Option String) (rows : List α)
    (es : List Event) : Prop :=
  ∀ p table, p <+: es → run step {} p = some table → Right url rows table

theorem rightThroughout_iff (hr : run (Table.step storage labels url rows) {} es = some table) :
    RightThroughout (Table.step storage labels url rows) url rows es ↔ ∀ p e r u, es = p ++ e :: r →
      run (Table.step storage labels url rows) {} p = some u → Keeps url rows u e := by
  refine throughout_iff (I := fun _ u => Right url rows u) (List.forall_mem_nil _) ?_ ?_
  · exact fun p u e v _ hright he => right_step hright he
  · rintro p e r u rfl hu htrap
    obtain ⟨v, hv⟩ := run_step hr hu
    cases htrap.symm.trans hv

/-! ## Rows -/

/-- The rows that can be displayed have no address, or all one and the same. -/
def Uniform (storage : Storage) (url : α → Option String) (rows : List α) : Prop :=
  ∀ row picture, urlAt url rows row = some picture → storage.accepts picture = true →
    ∀ (row' : ℕ) (model : α), rows[row']? = some model → storage.takes (url model) = true → url model = some picture

/-- Pictures come from rows with an address of the storage; a cell is bound to a row that can be displayed. -/
structure Sourced (storage : Storage) (url : α → Option String) (rows : List α) (table : Table L) : Prop where
  images : ∀ c ∈ table.cells, ∀ picture, c.lblImage = some picture →
    storage.accepts picture = true ∧ ∃ row, urlAt url rows row = some picture
  downloads : ∀ download ∈ table.downloads,
    storage.accepts download.url = true ∧ ∃ row, urlAt url rows row = some download.url
  bound : ∀ c ∈ table.cells, ∀ row, c.row = some row →
    ∃ model, rows[row]? = some model ∧ storage.takes (url model) = true

theorem Sourced.right (h : Sourced storage url rows table) (huniform : Uniform storage url rows) :
    Right url rows table := by
  intro c hc row picture hrow hpicture
  obtain ⟨haccepts, row', hrow'⟩ := h.images c hc picture hpicture
  obtain ⟨model, hmodel, htakes⟩ := h.bound c hc row hrow
  rw [urlAt, hmodel]
  exact huniform row' picture hrow' haccepts row model hmodel htakes

/-- A cell that is handed out. -/
theorem Sourced.dequeue (h : Sourced storage url rows table) (reused : Option ℕ) :
    Sourced storage url rows (table.dequeueReusableCell reused).2 := by
  cases reused with
  | some cell => exact h
  | none =>
    refine ⟨fun c hc => ?_, h.downloads, fun c hc => ?_⟩
    · rcases List.mem_append.1 hc with hc | hc
      · exact h.images c hc
      · rw [List.mem_singleton.1 hc]
        exact nofun
    · rcases List.mem_append.1 hc with hc | hc
      · exact h.bound c hc
      · rw [List.mem_singleton.1 hc]
        exact nofun

theorem Sourced.step (h : Sourced storage url rows table) (he : table.step storage labels url rows e = some table') :
    Sourced storage url rows table' := by
  cases e with
  | cellForRowAt row reused =>
    simp only [Table.step] at he
    split at he
    · obtain ⟨model, downloads, hmodel, htakes, rfl, hdownloads⟩ := cellForRowAt_some he
      have hcells := h.dequeue reused
      refine ⟨(forall_mem_modify hcells.images).2 fun c hc => ?_, fun download hdownload => ?_,
        (forall_mem_modify hcells.bound).2 fun c _ row' hrow' => ?_⟩
      · exact hcells.images c (List.mem_of_getElem? hc)
      · rcases hdownloads with rfl | ⟨picture, hpicture, rfl⟩
        · exact h.downloads download hdownload
        · rcases List.mem_append.1 hdownload with hold | hnew
          · exact h.downloads download hold
          · rw [List.mem_singleton.1 hnew]
            rw [hpicture, Storage.takes_some] at htakes
            exact ⟨htakes, row, by rw [urlAt, hmodel]; exact hpicture⟩
      · cases hrow'
        exact ⟨model, hmodel, htakes⟩
    · cases he
      exact h
  | didEndDisplaying cell =>
    cases he
    refine ⟨(forall_mem_modify h.images).2 fun c hc => ?_, h.downloads, (forall_mem_modify h.bound).2 fun c _ => ?_⟩
    · exact h.images c (List.mem_of_getElem? hc)
    · exact nofun
  | downloaded i error data =>
    simp only [Table.step] at he
    split at he
    · rename_i download hdownload
      cases he
      have hrest : ∀ d ∈ table.downloads.eraseIdx i,
          storage.accepts d.url = true ∧ ∃ row, urlAt url rows row = some d.url :=
        fun d hd => h.downloads d ((List.eraseIdx_sublist _ _).subset hd)
      unfold Table.completion
      split
      · exact ⟨h.images, hrest, h.bound⟩
      split
      · refine ⟨(forall_mem_modify h.images).2 fun c _ picture hpicture => ?_, hrest,
          (forall_mem_modify h.bound).2 fun c hc => h.bound c (List.mem_of_getElem? hc)⟩
        have hsourced := h.downloads download (List.mem_of_getElem? hdownload)
        split at hpicture
        · cases hpicture
          exact hsourced
        · cases hpicture
      · exact ⟨h.images, hrest, h.bound⟩
    · cases he
      exact h

/-- A cell is filled for one row, leaves the screen and is filled for another one. -/
def recycle (row row' : ℕ) : List Event :=
  [.cellForRowAt row none, .downloaded 0 false (some true), .didEndDisplaying 0, .cellForRowAt row' (some 0)]

/-- Its picture is still the first one's. -/
theorem run_recycle (labels : α → L) {row row' : ℕ} {picture : String} {model' : α}
    (hrow : urlAt url rows row = some picture) (haccepts : storage.accepts picture = true)
    (hrow' : rows[row']? = some model') (htakes : storage.takes (url model') = true) :
    ∃ table c, run (Table.step storage labels url rows) {} (recycle row row') = some table ∧
      c ∈ table.cells ∧ c.row = some row' ∧ c.lblImage = some picture := by
  obtain ⟨model, hmodel, hpicture⟩ := Option.bind_eq_some_iff.1 hrow
  cases hpicture' : url model' with
  | none =>
    simp [recycle, Table.step, Table.isFree, Table.cellForRowAt, Table.dequeueReusableCell, Table.completion, hmodel,
      hrow', hpicture, hpicture', Storage.reference, haccepts]
  | some picture' =>
    rw [hpicture', Storage.takes_some] at htakes
    simp [recycle, Table.step, Table.isFree, Table.cellForRowAt, Table.dequeueReusableCell, Table.completion, hmodel,
      hrow', hpicture, hpicture', Storage.reference, haccepts, htakes]

theorem rightThroughout_all_iff (storage : Storage) (labels : α → L) (url : α → Option String) (rows : List α) :
    (∀ es, RightThroughout (Table.step storage labels url rows) url rows es) ↔ Uniform storage url rows := by
  constructor
  · intro hall row picture hrow haccepts row' model' hrow' htakes
    obtain ⟨table, c, hr, hc, hcrow, hcpicture⟩ := run_recycle labels hrow haccepts hrow' htakes
    have hright := hall (recycle row row') _ table List.prefix_rfl hr c hc row' picture hcrow hcpicture
    rwa [urlAt, hrow'] at hright
  · intro huniform es p table _ hr
    have hstart : Sourced storage url rows ({} : Table L) :=
      ⟨List.forall_mem_nil _, List.forall_mem_nil _,
        List.forall_mem_nil _⟩
    exact (run_invariant hstart (fun _ _ _ h he => h.step he) hr).right huniform

end

/-- **Pictures in recycled cells.** A run keeps the pictures of its cells right exactly when each of its steps does what
`Keeps` says; all runs on a list do exactly when those of its rows that can be displayed have no address, or all the same
one. So it is in the table of the events, and in the table of the trainers, whatever addresses the storage accepts. -/
theorem pictures_right_iff (storage : Storage) (eventsList : List EventModel) (trainers : List TrainerModel) :
    ((∀ es table, run (EventsVC.step storage eventsList) {} es = some table →
        (RightThroughout (EventsVC.step storage eventsList) EventModel.url eventsList es ↔ ∀ p e r u, es = p ++ e :: r →
          run (EventsVC.step storage eventsList) {} p = some u → Keeps EventModel.url eventsList u e)) ∧
      ((∀ es, RightThroughout (EventsVC.step storage eventsList) EventModel.url eventsList es) ↔
        Uniform storage EventModel.url eventsList)) ∧
    (∀ es table, run (TrainingVC.step storage trainers) {} es = some table →
      (RightThroughout (TrainingVC.step storage trainers) TrainerModel.url trainers es ↔ ∀ p e r u, es = p ++ e :: r →
        run (TrainingVC.step storage trainers) {} p = some u → Keeps TrainerModel.url trainers u e)) ∧
    ((∀ es, RightThroughout (TrainingVC.step storage trainers) TrainerModel.url trainers es) ↔
      Uniform storage TrainerModel.url trainers) := by
  refine ⟨⟨fun es table hr => ?_, ?_⟩, fun es table hr => ?_, ?_⟩
  · exact rightThroughout_iff hr
  · exact rightThroughout_all_iff storage EventsVC.labels EventModel.url eventsList
  · exact rightThroughout_iff hr
  · exact rightThroughout_all_iff storage TrainingVC.labels TrainerModel.url trainers

/-- An event with a picture, and one without. -/
def sampleList : List EventModel :=
  [.new (some "Walk") (some "Seattle") (some "May 6") none none (some pictureA),
    .new (some "Talk") (some "Tacoma") (some "May 7") none none none]

/-- The second event is shown with the picture of the first one. -/
theorem pictures_wrong : urlAt EventModel.url sampleList 1 = none ∧
    ∃ table, run (EventsVC.step sampleStorage sampleList) {} (recycle 0 1) = some table ∧
      table.cells.map (fun c => (c.row, c.lblImage)) = [(some 1, some pictureA)] ∧
      ¬ Right EventModel.url sampleList table := by
  refine ⟨rfl, _, rfl, rfl, fun hright => ?_⟩
  have hpicture := hright _ List.mem_cons_self 1 pictureA rfl rfl
  cases hpicture

end CareDirect.Cells
