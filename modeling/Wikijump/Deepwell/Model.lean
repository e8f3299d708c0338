import Mathlib.Order.Basic

/-!
# The `file_revision` table and the calls of `FileRevisionService`

Data model of `deepwell/src/services/file_revision/service.rs`:

* `FileRevision` — a row of the `file_revision` table (`models::file_revision::Model`), with the
  columns the service reads or writes;
* the inputs and outputs of the service's calls (`CreateFileRevision`, `UpdateFileRevision`, …);
* `Backend` — what the service asks of the code around it (`PageService::get`, `OutdateService`,
  the database's acceptance of a write), as arbitrary functions;
* `Service` — one `async fn` of the service as a function of the database: it panics or it returns
  its `Result`, and in both cases leaves a database behind.  `bind` is Rust's `?`.
-/

set_option autoImplicit false

namespace Deepwell

inductive FileRevisionType where
  | create
  | update
  | delete
  | undelete
  deriving DecidableEq, Repr

/-- The `licensing` column (a JSON value), kept as its canonical text: the service only compares
it for equality. -/
abbrev Licensing := String

def I32_MAX : Int := 2147483647

/-- Rust's `i32` addition (two's complement, as in a release build). -/
def wrappingAdd (a b : Int) : Int := Int.bmod (a + b) 4294967296

theorem wrappingAdd_one {a : Int} (h0 : 0 ≤ a) (h : a < I32_MAX) : wrappingAdd a 1 = a + 1 := by
  unfold wrappingAdd I32_MAX at *
  have h1 : (a + 1) % ((4294967296 : Nat) : Int) = a + 1 := Int.emod_eq_of_lt (by omega) (by omega)
  rw [Int.bmod_pos _ _ (by rw [h1]; omega), h1]

/-- A row of `file_revision` (`file_revision::Model`).  `created_at` and the other columns the
service neither reads nor writes are left out. -/
structure FileRevision where
  revisionId : Int
  revisionType : FileRevisionType
  revisionNumber : Int
  fileId : Int
  pageId : Int
  siteId : Int
  userId : Int
  name : String
  s3Hash : List UInt8
  sizeHint : Int
  mimeHint : String
  licensing : Licensing
  changes : List String
  comments : String
  hidden : List String
  deriving DecidableEq, Repr

/-- `ProvidedValue<T>`: one field of a partial update. -/
inductive ProvidedValue (α : Type) where
  | set (value : α)
  | unset
  deriving DecidableEq, Repr

/-- The blob group: hash, size and MIME type change together. -/
structure FileBlob where
  s3Hash : List UInt8
  sizeHint : Int
  mimeHint : String
  deriving DecidableEq, Repr

def FileRevision.blob (r : FileRevision) : FileBlob := ⟨r.s3Hash, r.sizeHint, r.mimeHint⟩

structure CreateFileRevisionBody where
  pageId : ProvidedValue Int
  name : ProvidedValue String
  blob : ProvidedValue FileBlob
  licensing : ProvidedValue Licensing
  deriving DecidableEq, Repr

structure CreateFileRevision where
  siteId : Int
  pageId : Int
  fileId : Int
  userId : Int
  comments : String
  body : CreateFileRevisionBody
  deriving DecidableEq, Repr

structure CreateFileRevisionOutput where
  fileRevisionId : Int
  fileRevisionNumber : Int
  deriving DecidableEq, Repr

structure CreateFirstFileRevision where
  pageId : Int
  siteId : Int
  fileId : Int
  userId : Int
  name : String
  s3Hash : List UInt8
  sizeHint : Int
  mimeHint : String
  licensing : Licensing
  comments : String
  deriving DecidableEq, Repr

structure CreateFirstFileRevisionOutput where
  fileId : Int
  fileRevisionId : Int
  deriving DecidableEq, Repr

structure CreateTombstoneFileRevision where
  siteId : Int
  pageId : Int
  fileId : Int
  userId : Int
  comments : String
  deriving DecidableEq, Repr

structure CreateResurrectionFileRevision where
  siteId : Int
  pageId : Int
  fileId : Int
  userId : Int
  newPageId : Int
  newName : String
  comments : String
  deriving DecidableEq, Repr

structure UpdateFileRevision where
  siteId : Int
  pageId : Int
  fileId : Int
  revisionId : Int
  userId : Int
  hidden : List String
  deriving DecidableEq, Repr

inductive FetchDirection where
  | before
  | after
  deriving DecidableEq, Repr

structure GetFileRevisionRange where
  pageId : Int
  fileId : Int
  revisionNumber : Int
  revisionDirection : FetchDirection
  limit : Nat
  deriving DecidableEq, Repr

/-- The failures of the code around the service: `Error::PageNotFound` from `PageService::get`,
and the database or other errors the service propagates with `?`. -/
inductive ExternalError where
  | pageNotFound
  | database
  | other
  deriving DecidableEq, Repr

/-- `Error`: the variants the services return themselves, and those they pass on. -/
inductive Error where
  | fileNameEmpty
  | fileNameTooLong
  | fileMimeEmpty
  | cannotHideLatestRevision
  | fileRevisionNotFound
  | fileNotFound
  | invalidAuthentication
  | external (e : ExternalError)
  deriving DecidableEq, Repr

/-- Which `OutdateService` entry point was called. -/
inductive OutdateKind where
  | edit
  | displace
  deriving DecidableEq, Repr

/-- A call `OutdateService::process_page_{edit,displace}(ctx, site_id, page_id, slug, depth)`. -/
structure Outdate where
  kind : OutdateKind
  siteId : Int
  pageId : Int
  slug : String
  depth : Nat
  deriving DecidableEq, Repr

/-- The database as the service sees it: the `file_revision` table in insertion order, and the
`OutdateService` calls made so far. -/
structure State where
  rows : List FileRevision
  outdated : List Outdate
  deriving DecidableEq, Repr

/-- The collaborators of the service.  Every theorem quantifies over them. -/
structure Backend where
  /-- `PageService::get(ctx, site_id, Reference::Id(page_id))`, read for the page's slug. -/
  getPage : Int → Int → Except ExternalError String
  /-- Whether `OutdateService` succeeds on a call. -/
  outdate : Outdate → Except ExternalError Unit
  /-- Whether the database accepts the write of a row (`insert` or `update`). -/
  write : FileRevision → Except ExternalError Unit

/-- What a call does: it panics (an `assert_eq!`, an `expect`), or it returns its `Result`; either
way it leaves a database behind. -/
inductive Outcome (α : Type) where
  | panic (msg : String) (st : State)
  | done (result : Except Error α) (st : State)

def Outcome.state {α : Type} : Outcome α → State
  | .panic _ st => st
  | .done _ st => st

/-- One call of the service, run against a database. -/
def Service (α : Type) : Type := State → Outcome α

namespace Service

variable {α β : Type}

/-- `Ok(a)`. -/
protected def pure (a : α) : Service α := fun st => .done (.ok a) st

/-- Rust's `?`: an `Err` or a panic ends the call. -/
protected def bind (x : Service α) (f : α → Service β) : Service β := fun st =>
  match x st with
  | .panic msg st' => .panic msg st'
  | .done (.error e) st' => .done (.error e) st'
  | .done (.ok a) st' => f a st'

instance : Monad Service where
  pure := Service.pure
  bind := Service.bind

/-- `return Err(e)`. -/
def fail (e : Error) : Service α := fun st => .done (.error e) st

/-- A pure computation that may panic (`.error msg`), run inside a call. -/
def ofPanic (x : Except String α) : Service α := fun st =>
  match x with
  | .error msg => .panic msg st
  | .ok a => .done (.ok a) st

/-- A pure `Result`, run inside a call. -/
def ofExcept (x : Except Error α) : Service α := fun st => .done x st

@[simp] theorem pure_apply (a : α) (st : State) : (pure a : Service α) st = .done (.ok a) st := rfl

@[simp] theorem fail_apply (e : Error) (st : State) : (fail e : Service α) st = .done (.error e) st :=
  rfl

@[simp] theorem ofPanic_error (msg : String) (st : State) :
    (ofPanic (.error msg) : Service α) st = .panic msg st := rfl

@[simp] theorem ofPanic_ok (a : α) (st : State) : ofPanic (.ok a) st = .done (.ok a) st := rfl

@[simp] theorem ofExcept_apply (x : Except Error α) (st : State) : ofExcept x st = .done x st := rfl

theorem bind_apply (x : Service α) (f : α → Service β) (st : State) :
    (x >>= f) st = match x st with
      | .panic msg st' => .panic msg st'
      | .done (.error e) st' => .done (.error e) st'
      | .done (.ok a) st' => f a st' := rfl

@[simp] theorem bind_of_ok {x : Service α} {f : α → Service β} {st st' : State} {a : α}
    (h : x st = .done (.ok a) st') : (x >>= f) st = f a st' := by
  rw [bind_apply, h]

@[simp] theorem bind_of_error {x : Service α} {f : α → Service β} {st st' : State} {e : Error}
    (h : x st = .done (.error e) st') : (x >>= f) st = .done (.error e) st' := by
  rw [bind_apply, h]

@[simp] theorem bind_of_panic {x : Service α} {f : α → Service β} {st st' : State} {msg : String}
    (h : x st = .panic msg st') : (x >>= f) st = .panic msg st' := by
  rw [bind_apply, h]

end Service

end Deepwell
