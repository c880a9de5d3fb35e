import YoutubeFactory.Access.Rbac
import YoutubeFactory.Python.Object
import Mathlib.Data.List.Sort

/-!
# Workspaces, projects and videos

The tables of `app/models/workspace.py` and `video.py`, the pages of
`BaseRepository.paginate` and the slugs of `app/utils/slug.py`.

A project belongs to the organization of its workspace, and a video to the one of its
project.
-/

namespace YoutubeFactory.Content

open Access Python

/-! ## Tables -/

structure Workspace where
  organizationId : Id
  name : String
  slug : String
  createdBy : Option Id
  createdAt : DateTime
  deletedAt : Option DateTime

structure Project where
  workspaceId : Id
  name : String
  slug : String
  description : Option String
  status : String
  createdBy : Option Id
  createdAt : DateTime
  deletedAt : Option DateTime

structure Channel where
  projectId : Id
  name : String
  youtubeChannelId : Option String
  handle : Option String
  isConnected : Bool
  createdAt : DateTime
  deletedAt : Option DateTime

structure Video where
  projectId : Id
  channelId : Option Id
  title : String
  description : Option String
  status : String
  createdBy : Option Id
  createdAt : DateTime
  deletedAt : Option DateTime

structure ContentDb where
  workspaces : List Workspace
  projects : List Project
  channels : List Channel
  videos : List Video

namespace ContentDb

/-- The organization of a workspace. -/
def workspaceOrganization (db : ContentDb) (workspaceId : Id) : Option Id :=
  (db.workspaces[workspaceId]?).map (·.organizationId)

/-- The organization of a project. -/
def projectOrganization (db : ContentDb) (projectId : Id) : Option Id :=
  (db.projects[projectId]?).bind fun p => db.workspaceOrganization p.workspaceId

end ContentDb

/-! ## Pages -/

/-- `PageParams` within the bounds of the routes' query parameters. -/
structure PageParams where
  page : Nat
  size : Nat
  page_pos : 1 ≤ page
  size_pos : 1 ≤ size
  size_le : size ≤ 100

/-- `limit` -/
def PageParams.limit (params : PageParams) : Nat := min (max params.size 1) 100

/-- `offset` -/
def PageParams.offset (params : PageParams) : Nat := (max params.page 1 - 1) * params.limit

/-- A page of rows, each with its id. -/
structure Page (Row : Type) where
  items : List (Row × Id)
  total : Nat
  page : Nat
  size : Nat

section

variable {Row : Type}

/-- The rows that pass the filters, newest first.  Rows created at one moment stay in the
order of the table. -/
def matching (createdAt : Row → DateTime) (passes : Row → Bool) (rows : List Row) :
    List (Row × Id) :=
  (rows.zipIdx.filter fun r => passes r.1).insertionSort
    fun r r' => createdAt r'.1 ≤ createdAt r.1

/-- `paginate`.  The filters leave out deleted rows. -/
def paginate (createdAt : Row → DateTime) (passes : Row → Bool) (rows : List Row)
    (params : PageParams) : Page Row where
  items := ((matching createdAt passes rows).drop params.offset).take params.limit
  total := (matching createdAt passes rows).length
  page := params.page
  size := params.limit

variable {createdAt : Row → DateTime} {passes : Row → Bool} {rows : List Row}

theorem mem_matching {row : Row} {id : Id} :
    (row, id) ∈ matching createdAt passes rows ↔ rows[id]? = some row ∧ passes row = true := by
  rw [matching, List.mem_insertionSort, List.mem_filter, List.mem_zipIdx_iff_getElem?]

/-- A page shows rows of the table that pass the filters. -/
theorem mem_paginate {params : PageParams} {item : Row × Id}
    (h : item ∈ (paginate createdAt passes rows params).items) :
    rows[item.2]? = some item.1 ∧ passes item.1 = true :=
  mem_matching.mp (List.mem_of_mem_drop (List.mem_of_mem_take h))

end

/-! ## Slugs -/

/-- `lower()` as far as it gives ASCII letters: besides the capitals, the Kelvin sign and
the capital I with a dot do. -/
def lowerAscii (c : Char) : List Char :=
  if c = '\u212a' then ['k'] else if c = '\u0130' then ['i', '\u0307'] else [c.toLower]

def isSlugChar (c : Char) : Bool := ('a' ≤ c && c ≤ 'z') || ('0' ≤ c && c ≤ '9')

/-- `_NON_SLUG.sub("-", ...)`; `inRun` says that the character before was replaced. -/
def hyphenate (inRun : Bool) : List Char → List Char
  | [] => []
  | c :: cs =>
      if isSlugChar c then c :: hyphenate false cs
      else if inRun then hyphenate true cs
      else '-' :: hyphenate true cs

/-- `slugify` -/
def slugify (value : String) : String :=
  let hyphenated := hyphenate false ((strip value).toList.flatMap lowerAscii)
  let slug := ((hyphenated.dropWhile (· = '-')).reverse.dropWhile (· = '-')).reverse
  if slug = [] then "org" else String.ofList slug

example : slugify "  Kids & Toys!  " = "kids-toys" := by decide

end YoutubeFactory.Content
