import CareDirect.Cells.Pictures
import CareDirect.Events.EventsVC

/-!
# Tables whose lists change

The rows of a table change with every delivery, between the requests of UIKit for cells, taps and pictures. Each of the
three controllers calls `reloadData` in the block that changes its list, so that in every run the cells on screen have
the texts of the rows of the list there is; only their pictures may be old ones, and even these were once asked for by
the same cell (`tables_run`). The one thing that stops a table is a row whose address the storage refuses.
-/

namespace CareDirect.Cells

open Directory PartialRun

/-! ## Controllers with a table -/

/-- A controller: its calls, and what its table reads from it. -/
structure Controller (σ ε α L : Type) where
  step : σ → ε → Option σ
  rows : σ → List α
  /-- The calls that end in `reloadData`. -/
  reloads : σ → ε → Bool
  labels : α → L
  url : α → Option String
  storage : Storage
  /-- No other call changes the rows. -/
  keeps : ∀ vc e vc', step vc e = some vc' → reloads vc e = false → rows vc' = rows vc

/-- A controller and its table. -/
structure Live (σ L : Type) where
  vc : σ
  table : Table L := {}

inductive LiveEvent (ε : Type)
  | call (e : ε)
  | table (e : Event)

def LiveEvent.toCall {ε : Type} : LiveEvent ε → Option ε
  | .call e => some e
  | .table _ => none

/-- The cells on screen are given back. -/
def Table.reloadData {L : Type} (table : Table L) : Table L :=
  { table with cells := table.cells.map fun c => { c with row := none } }

/-- `tableView.cellForRow(at:)` -/
def Table.cellForRow {L : Type} (table : Table L) (row : ℕ) : Option (Cell L) :=
  table.cells.find? fun cell => cell.row == some row

section

variable {σ ε α L : Type}

def Live.step (c : Controller σ ε α L) (live : Live σ L) : LiveEvent ε → Option (Live σ L)
  | .call e => (c.step live.vc e).map fun vc =>
    { vc, table := if c.reloads live.vc e then live.table.reloadData else live.table }
  | .table e => (live.table.step c.storage c.labels c.url (c.rows live.vc) e).map fun table => { live with table }

/-- UIKit hands out the cell `k` for a row with this address. -/
def Asks (c : Controller σ ε α L) (k : ℕ) (picture : String) (live : Live σ L) : LiveEvent ε → Prop
  | .table (.cellForRowAt row reused) => live.table.isFree reused = true ∧
      (live.table.dequeueReusableCell reused).1 = k ∧ urlAt c.url (c.rows live.vc) row = some picture
  | _ => False

/-- In the run, the cell `k` has been handed out for a row with this address. -/
def Asked (c : Controller σ ε α L) (start : Live σ L) (es : List (LiveEvent ε)) (k : ℕ) (picture : String) : Prop :=
  Occurs (Live.step c) start es (Asks c k picture)

variable {c : Controller σ ε α L} {start live live' : Live σ L} {es : List (LiveEvent ε)} {e : LiveEvent ε}
  {table table' : Table L} {rows : List α} {k : ℕ}

/-- The controller runs on its calls alone. -/
theorem Live.run_vc (h : run (Live.step c) start es = some live) :
    run c.step start.vc (es.filterMap LiveEvent.toCall) = some live.vc := by
  refine run_view Live.vc LiveEvent.toCall (fun u e v he => ?_) h
  cases e with
  | call e =>
    obtain ⟨vc, hvc, rfl⟩ := Option.map_eq_some_iff.1 he
    exact .inr ⟨e, rfl, hvc⟩
  | table e =>
    obtain ⟨table, -, rfl⟩ := Option.map_eq_some_iff.1 he
    exact .inl ⟨rfl, rfl⟩

/-! ## Cells after a write -/

theorem getElem?_modify_cases {β : Type} {f : β → β} {l : List β} {i : ℕ} {y : β} (h : (l.modify i f)[k]? = some y) :
    (k = i ∧ ∃ x, l[k]? = some x ∧ y = f x) ∨ l[k]? = some y := by
  rw [List.getElem?_modify] at h
  obtain ⟨x, hx, rfl⟩ := Option.map_eq_some_iff.1 h
  split
  · rename_i hik
    exact .inl ⟨hik.symm, x, hx, rfl⟩
  · exact .inr hx

/-- A cell that is handed out is new, or was there. -/
theorem getElem?_dequeue {reused : Option ℕ} {cell : Cell L}
    (h : (table.dequeueReusableCell reused).2.cells[k]? = some cell) : table.cells[k]? = some cell ∨ cell = {} := by
  cases reused with
  | some i => exact .inl h
  | none =>
    rcases List.mem_append.1 (List.mem_of_getElem? h) with hcell | hcell
    · by_cases hk : k < table.cells.length
      · rw [Table.dequeueReusableCell, List.getElem?_append_left hk] at h
        exact .inl h
      · rw [Table.dequeueReusableCell, List.getElem?_append_right (Nat.le_of_not_lt hk)] at h
        exact .inr (List.mem_singleton.1 (List.mem_of_getElem? h))
    · exact .inr (List.mem_singleton.1 hcell)

/-- The cells after an event of the table: as before, given back, bound to a row, or with a downloaded picture. -/
theorem cells_step {e : Event} (h : table.step c.storage c.labels c.url rows e = some table') {cell' : Cell L}
    (hcell : table'.cells[k]? = some cell') :
    (table.cells[k]? = some cell' ∨ cell' = {}) ∨
    ∃ cell : Cell L, (table.cells[k]? = some cell ∨ cell = {}) ∧
      (cell' = { cell with row := none } ∨
      (∃ row reused model, e = .cellForRowAt row reused ∧ table.isFree reused = true ∧
        (table.dequeueReusableCell reused).1 = k ∧ rows[row]? = some model ∧ c.storage.takes (c.url model) = true ∧
        cell' = { cell with labels := some (c.labels model), row := some row }) ∨
      ∃ image, cell' = { cell with lblImage := image } ∧
        ∀ picture, image = some picture → ⟨k, picture⟩ ∈ table.downloads) := by
  cases e with
  | cellForRowAt row reused =>
    simp only [Table.step] at h
    split at h
    · rename_i hfree
      obtain ⟨model, downloads, hmodel, htakes, rfl, -⟩ := cellForRowAt_some h
      rcases getElem?_modify_cases hcell with ⟨rfl, cell, hold, rfl⟩ | hold
      · exact .inr ⟨cell, getElem?_dequeue hold,
          .inr (.inl ⟨row, reused, model, rfl, hfree, rfl, hmodel, htakes, rfl⟩)⟩
      · exact .inl (getElem?_dequeue hold)
    · cases h
      exact .inl (.inl hcell)
  | didEndDisplaying i =>
    cases h
    rcases getElem?_modify_cases hcell with ⟨-, cell, hold, rfl⟩ | hold
    · exact .inr ⟨cell, .inl hold, .inl rfl⟩
    · exact .inl (.inl hold)
  | downloaded i error data =>
    simp only [Table.step] at h
    split at h
    · rename_i download hdownload
      cases h
      unfold Table.completion at hcell
      split at hcell
      · exact .inl (.inl hcell)
      split at hcell
      · rename_i isImage
        rcases getElem?_modify_cases hcell with ⟨rfl, cell, hold, rfl⟩ | hold
        · refine .inr ⟨cell, .inl hold, .inr (.inr ⟨_, rfl, fun picture hpicture => ?_⟩)⟩
          split at hpicture
          · cases hpicture
            exact List.mem_of_getElem? hdownload
          · cases hpicture
        · exact .inl (.inl hold)
      · exact .inl (.inl hcell)
    · cases h
      exact .inl (.inl hcell)

/-- The downloads after an event of the table. -/
theorem downloads_step {e : Event} (h : table.step c.storage c.labels c.url rows e = some table') {download : Download}
    (hdownload : download ∈ table'.downloads) : download ∈ table.downloads ∨
      ∃ row reused, e = .cellForRowAt row reused ∧ table.isFree reused = true ∧
        (table.dequeueReusableCell reused).1 = download.cell ∧ urlAt c.url rows row = some download.url := by
  cases e with
  | cellForRowAt row reused =>
    simp only [Table.step] at h
    split at h
    · rename_i hfree
      obtain ⟨model, downloads, hmodel, -, rfl, hsame | ⟨picture, hpicture, hnew⟩⟩ := cellForRowAt_some h
      · exact .inl (hsame ▸ hdownload)
      · rw [hnew] at hdownload
        rcases List.mem_append.1 hdownload with hold | hnew
        · exact .inl hold
        · rw [List.mem_singleton.1 hnew]
          refine .inr ⟨row, reused, rfl, hfree, rfl, ?_⟩
          rw [urlAt, hmodel]
          exact hpicture
    · cases h
      exact .inl hdownload
  | didEndDisplaying i =>
    cases h
    exact .inl hdownload
  | downloaded i error data =>
    simp only [Table.step] at h
    have herase : ∀ d : Download, d ∈ table.downloads.eraseIdx i → d ∈ table.downloads := fun d hd =>
      (List.eraseIdx_sublist _ _).subset hd
    split at h
    · cases h
      unfold Table.completion at hdownload
      split at hdownload
      · exact .inl (herase _ hdownload)
      split at hdownload
      · exact .inl (herase _ hdownload)
      · exact .inl (herase _ hdownload)
    · cases h
      exact .inl hdownload

/-! ## The invariant -/

/-- The cells on screen have the texts of their rows. -/
def Labelled (c : Controller σ ε α L) (live : Live σ L) : Prop :=
  ∀ (k : ℕ) (cell : Cell L) (row : ℕ), live.table.cells[k]? = some cell → cell.row = some row →
    ∃ model, (c.rows live.vc)[row]? = some model ∧ cell.labels = some (c.labels model)

/-- The rows of the cells on screen have no address, or one of the storage. -/
def Stored (c : Controller σ ε α L) (live : Live σ L) : Prop :=
  ∀ (k : ℕ) (cell : Cell L) (row : ℕ), live.table.cells[k]? = some cell → cell.row = some row →
    ∃ model, (c.rows live.vc)[row]? = some model ∧ c.storage.takes (c.url model) = true

/-- Every picture that is shown or asked for was asked for by its own cell. -/
structure Own (c : Controller σ ε α L) (start : Live σ L) (es : List (LiveEvent ε)) (live : Live σ L) : Prop where
  images : ∀ (k : ℕ) (cell : Cell L) picture, live.table.cells[k]? = some cell → cell.lblImage = some picture →
    Asked c start es k picture
  downloads : ∀ download ∈ live.table.downloads, Asked c start es download.cell download.url

/-- The cell of a row on screen has the texts of its record. -/
theorem Labelled.cellForRow (h : Labelled c live) {row : ℕ} (hcell : (live.table.cellForRow row).isSome = true) :
    ∃ model cell, (c.rows live.vc)[row]? = some model ∧ live.table.cellForRow row = some cell ∧
      cell.labels = some (c.labels model) := by
  obtain ⟨cell, hcell⟩ := Option.isSome_iff_exists.1 hcell
  obtain ⟨k, hk⟩ := List.mem_iff_getElem?.1 (List.mem_of_find?_eq_some hcell)
  have hrow : cell.row = some row := by simpa using List.find?_some hcell
  obtain ⟨model, hmodel, hlabels⟩ := h k cell row hk hrow
  exact ⟨model, cell, hmodel, hcell, hlabels⟩

/-- A cell on screen was there before, in a list that is the same, or has just been filled. -/
theorem bound_step (he : Live.step c live e = some live') {cell' : Cell L} {row : ℕ}
    (hcell : live'.table.cells[k]? = some cell') (hrow : cell'.row = some row) :
    (c.rows live'.vc = c.rows live.vc ∧
      ∃ cell, live.table.cells[k]? = some cell ∧ cell.row = some row ∧ cell.labels = cell'.labels) ∨
    ∃ model, (c.rows live'.vc)[row]? = some model ∧ c.storage.takes (c.url model) = true ∧
      cell'.labels = some (c.labels model) := by
  cases e with
  | call e =>
    obtain ⟨vc, hvc, rfl⟩ := Option.map_eq_some_iff.1 he
    simp only at hcell
    split at hcell
    · rw [Table.reloadData, List.getElem?_map] at hcell
      obtain ⟨cell, -, rfl⟩ := Option.map_eq_some_iff.1 hcell
      cases hrow
    · rename_i hreloads
      exact .inl ⟨c.keeps _ _ _ hvc (by simpa using hreloads), cell', hcell, hrow, rfl⟩
  | table e =>
    obtain ⟨table, htable, rfl⟩ := Option.map_eq_some_iff.1 he
    have hold : ∀ cell : Cell L, live.table.cells[k]? = some cell ∨ cell = {} → cell.row = some row →
        live.table.cells[k]? = some cell := by
      rintro cell (hold | rfl) hrow
      · exact hold
      · cases hrow
    rcases cells_step htable hcell with
      hsame | ⟨cell, hfrom, rfl | ⟨row', _, model, -, -, -, hmodel, htakes, rfl⟩ | ⟨_, rfl, -⟩⟩
    · exact .inl ⟨rfl, cell', hold cell' hsame hrow, hrow, rfl⟩
    · cases hrow
    · cases hrow
      exact .inr ⟨model, hmodel, htakes, rfl⟩
    · exact .inl ⟨rfl, cell, hold cell hfrom hrow, hrow, rfl⟩

theorem Labelled.step (h : Labelled c live) (he : Live.step c live e = some live') : Labelled c live' := by
  intro k cell' row hcell hrow
  rcases bound_step he hcell hrow with ⟨hrows, cell, hold, hbound, hsame⟩ | ⟨model, hmodel, -, hlabels⟩
  · obtain ⟨model, hmodel, hlabels⟩ := h k cell row hold hbound
    exact ⟨model, hrows ▸ hmodel, hsame ▸ hlabels⟩
  · exact ⟨model, hmodel, hlabels⟩

theorem Stored.step (h : Stored c live) (he : Live.step c live e = some live') : Stored c live' := by
  intro k cell' row hcell hrow
  rcases bound_step he hcell hrow with ⟨hrows, cell, hold, hbound, -⟩ | ⟨model, hmodel, htakes, -⟩
  · obtain ⟨model, hmodel, htakes⟩ := h k cell row hold hbound
    exact ⟨model, hrows ▸ hmodel, htakes⟩
  · exact ⟨model, hmodel, htakes⟩

theorem Own.step (h : Own c start es live) (hlive : run (Live.step c) start es = some live)
    (he : Live.step c live e = some live') : Own c start (es ++ [e]) live' := by
  cases e with
  | call e =>
    obtain ⟨vc, hvc, rfl⟩ := Option.map_eq_some_iff.1 he
    refine ⟨fun k cell' picture hcell hpicture => ?_, fun download hdownload => ?_⟩
    · simp only at hcell
      split at hcell
      · rw [Table.reloadData, List.getElem?_map] at hcell
        obtain ⟨cell, hold, rfl⟩ := Option.map_eq_some_iff.1 hcell
        exact (h.images k cell picture hold hpicture).append _
      · exact (h.images k cell' picture hcell hpicture).append _
    · simp only at hdownload
      split at hdownload
      · exact (h.downloads download hdownload).append _
      · exact (h.downloads download hdownload).append _
  | table e =>
    obtain ⟨table, htable, rfl⟩ := Option.map_eq_some_iff.1 he
    refine ⟨fun k cell' picture hcell hpicture => ?_, fun download hdownload => ?_⟩
    · have hold : ∀ cell : Cell L, live.table.cells[k]? = some cell ∨ cell = {} → cell.lblImage = some picture →
          Asked c start (es ++ [.table e]) k picture := by
        rintro cell (hold | rfl) hpicture
        · exact (h.images k cell picture hold hpicture).append _
        · cases hpicture
      rcases cells_step htable hcell with
        hsame | ⟨cell, hfrom, rfl | ⟨_, _, _, -, -, -, -, -, rfl⟩ | ⟨image, rfl, himage⟩⟩
      · exact hold cell' hsame hpicture
      · exact hold cell hfrom hpicture
      · exact hold cell hfrom hpicture
      · exact (h.downloads _ (himage picture hpicture)).append _
    · rcases downloads_step htable hdownload with hold | ⟨row, reused, rfl, hfree, hcell, hurl⟩
      · exact (h.downloads download hold).append _
      · exact (occurs_snoc hlive).2 (.inr ⟨hfree, hcell, hurl⟩)

/-- What holds of the table of a controller at every moment. -/
structure Correct (c : Controller σ ε α L) (start : Live σ L) (es : List (LiveEvent ε)) (live : Live σ L) : Prop where
  labelled : Labelled c live
  pictures : ∀ (k : ℕ) (cell : Cell L) picture, live.table.cells[k]? = some cell → cell.lblImage = some picture →
    Asked c start es k picture
  /-- A row that there is cannot be displayed exactly where the storage refuses its address. -/
  stops : ∀ row model reused, (c.rows live.vc)[row]? = some model → live.table.isFree reused = true →
    (Live.step c live (.table (.cellForRowAt row reused)) = none ↔
      ∃ picture, c.url model = some picture ∧ c.storage.accepts picture = false)

theorem stops_iff {row : ℕ} {reused : Option ℕ} {model : α} (hmodel : (c.rows live.vc)[row]? = some model)
    (hfree : live.table.isFree reused = true) : Live.step c live (.table (.cellForRowAt row reused)) = none ↔
      ∃ picture, c.url model = some picture ∧ c.storage.accepts picture = false := by
  rw [Live.step, Option.map_eq_none_iff, Table.step, if_pos hfree, cellForRowAt_eq_none_iff hmodel,
    Storage.takes_eq_false_iff]

variable {vc : σ}

theorem labelled_run (h : run (Live.step c) { vc } es = some live) : Labelled c live := by
  refine run_invariant (I := Labelled c) ?_ (fun _ _ _ hu he => hu.step he) h
  rintro k cell row hcell
  cases hcell

theorem stored_run (h : run (Live.step c) { vc } es = some live) : Stored c live := by
  refine run_invariant (I := Stored c) ?_ (fun _ _ _ hu he => hu.step he) h
  rintro k cell row hcell
  cases hcell

theorem correct_run (h : run (Live.step c) { vc } es = some live) : Correct c { vc } es live := by
  have hown : Own c { vc } es live := by
    refine run_induction (I := fun p u => Own c { vc } p u) ⟨?_, List.forall_mem_nil _⟩
      (fun p u e v hp hu he => hu.step hp he) es h
    rintro k cell picture hcell
    cases hcell
  exact ⟨labelled_run h, hown.images, fun _ _ _ hmodel hfree => stops_iff hmodel hfree⟩

end

/-! ## The three controllers -/

def EventsVC.reloads : Events.Event → Bool
  | .events snapshot => decide (snapshot.childrenCount > 0)
  | .geocoded .. => false

/-- `EventsVC.swift` -/
def EventsVC.controller (storage : Storage) : Controller Events.EventsVC Events.Event EventModel ListLabels where
  step := Events.step
  rows := Events.EventsVC.eventsList
  reloads _ := EventsVC.reloads
  labels := EventsVC.labels
  url := EventModel.url
  storage := storage
  keeps vc e vc' h hreloads := by
    cases e with
    | events snapshot =>
      have hcount : ¬ snapshot.childrenCount > 0 := of_decide_eq_false hreloads
      rw [Events.step, Events.EventsVC.observerBlock, if_neg hcount] at h
      cases h
      rfl
    | geocoded i placemarks error =>
      rcases Events.geocoded_cases h with rfl | ⟨request, -, rfl | ⟨pin, -, rfl⟩⟩
      · rfl
      · rfl
      · rfl

/-- Without children a block that refills a list leaves it alone. -/
theorem refill_childless {α : Type} {decode : DataSnapshot → Option (Option α)} {list list' : List α}
    {snapshot : DataSnapshot} (h : Refill.refill decode list snapshot.children = some list')
    (hcount : decide (snapshot.childrenCount > 0) = false) : list' = list := by
  have hempty : snapshot.children = [] :=
    List.length_eq_zero_iff.1 (Nat.eq_zero_of_not_pos (of_decide_eq_false hcount))
  rw [hempty] at h
  exact (Option.some.inj h).symm

/-- `TrainingVC.swift` -/
def TrainingVC.controller (storage : Storage) :
    Controller Directory.TrainingVC DataSnapshot TrainerModel TrainerLabels where
  step := Directory.TrainingVC.observerBlock
  rows := Directory.TrainingVC.trainers
  reloads _ snapshot := decide (snapshot.childrenCount > 0)
  labels := TrainingVC.labels
  url := TrainerModel.url
  storage := storage
  keeps vc snapshot vc' h hreloads := by
    obtain ⟨trainers, htrainers, he⟩ := Option.bind_eq_some_iff.1 h
    cases he
    exact refill_childless htrainers hreloads

/-- The labels of `DetailsTableViewCell.swift`. -/
structure DetailsLabels where
  lblTitle : Option String
  lblLocation : Option String
  lblDate : Option String
  lblOrganization : Option String
  lblDescription : Option String
  deriving DecidableEq, Repr

def DetailsViewController.labels (detail : DetailsModel) : DetailsLabels where
  lblTitle := detail.title
  lblLocation := detail.location
  lblDate := detail.date
  lblOrganization := detail.organization
  lblDescription := detail.description

/-- `DetailsViewController.swift` -/
def DetailsViewController.controller (storage : Storage) :
    Controller Directory.DetailsViewController DataSnapshot DetailsModel DetailsLabels where
  step := Directory.DetailsViewController.observerBlock
  rows := Directory.DetailsViewController.detailsList
  reloads _ snapshot := decide (snapshot.childrenCount > 0)
  labels := DetailsViewController.labels
  url := DetailsModel.url
  storage := storage
  keeps vc snapshot vc' h hreloads := by
    obtain ⟨detailsList, hdetails, he⟩ := Option.bind_eq_some_iff.1 h
    cases he
    exact refill_childless hdetails hreloads

/-- **Tables whose lists change.** In every order of deliveries, requests for cells, scrolling and downloads, and in the
tables of all three controllers: a cell on screen has the texts of its row in the list there is; a picture that a cell
shows is one that the same cell asked for when it was handed out for a row with that address; and a request for a row
that there is traps exactly where the storage refuses its address. -/
theorem tables_run (storage : Storage) :
    (∀ es live, run (Live.step (EventsVC.controller storage)) { vc := {} } es = some live →
      Correct (EventsVC.controller storage) { vc := {} } es live) ∧
    (∀ es live, run (Live.step (TrainingVC.controller storage)) { vc := {} } es = some live →
      Correct (TrainingVC.controller storage) { vc := {} } es live) ∧
    ∀ es live, run (Live.step (DetailsViewController.controller storage)) { vc := {} } es = some live →
      Correct (DetailsViewController.controller storage) { vc := {} } es live :=
  ⟨fun _ _ h => correct_run h, fun _ _ h => correct_run h, fun _ _ h => correct_run h⟩

/-- The event is delivered, displayed and delivered again; its cell is then handed out for the second copy. -/
def sampleLive : List (LiveEvent Events.Event) :=
  [.call (.events (Events.sampleEvents pictureA)), .table (.cellForRowAt 0 none),
    .table (.downloaded 0 false (some true)), .call (.events (Events.sampleEvents pictureB)),
    .table (.cellForRowAt 1 (some 0))]

theorem tables_run_sample : ∃ live,
    run (Live.step (EventsVC.controller sampleStorage)) { vc := {} } sampleLive = some live ∧
    live.table.cells.map (fun cell => (cell.row, cell.lblImage)) = [(some 1, some pictureA)] ∧
    Correct (EventsVC.controller sampleStorage) { vc := {} } sampleLive live :=
  ⟨_, rfl, rfl, (tables_run sampleStorage).1 sampleLive _ rfl⟩

end CareDirect.Cells
