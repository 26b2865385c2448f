import CareDirect.Directory.Lists

/-!
# Tables with pictures

`EventsVC` and `TrainingVC` fill a cell in the same way: they set its labels to the texts of the row and, if the row has
a `url`, download the picture and put it into the cell that they have captured. A `url` that does not belong to the
storage of the app stops it. UIKit hands out a new cell, or one that is not on screen any more, as it was left: neither
cell class overrides `prepareForReuse`.
-/

namespace CareDirect.Cells

open Directory

/-- A cell of a table, with labels `L`. -/
structure Cell (L : Type) where
  labels : Option L := none
  /-- The address that the picture in the cell was downloaded from. -/
  lblImage : Option String := none
  /-- The row that the cell is bound to, while it is on screen. -/
  row : Option Nat := none
  deriving DecidableEq, Repr

/-- A call of `getData`, and the cell captured by its completion block. -/
structure Download where
  cell : Nat
  url : String
  deriving DecidableEq, Repr

/-- The cells made so far, and the downloads that have not been completed. -/
structure Table (L : Type) where
  cells : List (Cell L) := []
  downloads : List Download := []
  deriving DecidableEq, Repr

inductive Event
  /-- UIKit asks for a row, and will hand out a new cell or this one. -/
  | cellForRowAt (row : Nat) (reused : Option Nat)
  /-- The cell leaves the screen. -/
  | didEndDisplaying (cell : Nat)
  /-- The completion block of a download: an error, or no data, or data that are a picture or not. -/
  | downloaded (i : Nat) (error : Bool) (data : Option Bool)

namespace Table

variable {α L : Type}

def dequeueReusableCell (table : Table L) (reused : Option Nat) : Nat × Table L :=
  match reused with
  | some cell => (cell, table)
  | none => (table.cells.length, { table with cells := table.cells ++ [{}] })

/-- UIKit may hand out this cell. -/
def isFree (table : Table L) : Option Nat → Bool
  | some cell => table.cells[cell]?.any fun c => c.row.isNone
  | none => true

/-- `tableView(_:cellForRowAt:)`, for rows with these texts and addresses. -/
def cellForRowAt (storage : Storage) (labels : α → L) (url : α → Option String) (rows : List α) (table : Table L)
    (row : Nat) (reused : Option Nat) : Option (Table L) := do
  let model ← rows[row]?
  let (cell, table) := table.dequeueReusableCell reused
  let cells := table.cells.modify cell fun c => { c with labels := some (labels model), row := some row }
  match url model with
  | some url => do
    let imageStorageRef ← storage.reference url
    some { table with cells, downloads := table.downloads ++ [⟨cell, imageStorageRef⟩] }
  | none => some { table with cells }

/-- The completion block of a download. -/
def completion (table : Table L) (download : Download) (error : Bool) (data : Option Bool) : Table L :=
  if error then table
  else match data with
    | some isImage =>
      let image := if isImage then some download.url else none
      { table with cells := table.cells.modify download.cell fun c => { c with lblImage := image } }
    | none => table

/-- One event; `none` is a trap. -/
def step (storage : Storage) (labels : α → L) (url : α → Option String) (rows : List α) (table : Table L) :
    Event → Option (Table L)
  | .cellForRowAt row reused =>
    if table.isFree reused then table.cellForRowAt storage labels url rows row reused else some table
  | .didEndDisplaying cell => some { table with cells := table.cells.modify cell fun c => { c with row := none } }
  | .downloaded i error data =>
    match table.downloads[i]? with
    | some download =>
      some (completion { table with downloads := table.downloads.eraseIdx i } download error data)
    | none => some table

end Table

/-! ## The two controllers -/

/-- The labels of `ListTableViewCell.swift`. -/
structure ListLabels where
  lblTitle : Option String
  lblLocation : Option String
  lblDate : Option String
  deriving DecidableEq, Repr

def EventsVC.labels (event : EventModel) : ListLabels where
  lblTitle := event.title
  lblLocation := event.location
  lblDate := event.date

/-- The table of `EventsVC.swift`. -/
def EventsVC.step (storage : Storage) (eventsList : List EventModel) :
    Table ListLabels → Event → Option (Table ListLabels) :=
  Table.step storage EventsVC.labels EventModel.url eventsList

/-- The labels of `TrainerTableViewCell.swift`. -/
structure TrainerLabels where
  lblName : Option String
  lblOrganization : Option String
  lblLocation : Option String
  lblPhone : Option String
  lblEmail : Option String
  deriving DecidableEq, Repr

def TrainingVC.labels (trainer : TrainerModel) : TrainerLabels where
  lblName := trainer.name
  lblOrganization := trainer.organization
  lblLocation := trainer.location
  lblPhone := trainer.phone
  lblEmail := trainer.email

/-- The table of `TrainingVC.swift`. -/
def TrainingVC.step (storage : Storage) (trainers : List TrainerModel) :
    Table TrainerLabels → Event → Option (Table TrainerLabels) :=
  Table.step storage TrainingVC.labels TrainerModel.url trainers

end CareDirect.Cells
