import Markiro.Host.Base

/-!
# The change feed

`GET /v1/changes` (`changes.rs`): the reference records changed after a device's revision, in pages
that never split a revision. A page is cut twice: by count, inside the query (`page`), and by the
bytes of its items, between revisions (`withinBudget`). A request reads one snapshot of the tables.
-/

namespace Markiro.Feed

def defaultLimit : ℕ := 500
def maxLimit : ℕ := 1000
def maxPageBytes : ℕ := 1024 * 1024

/-! ## The tables -/

/-- A row of the feed: its id, its revision and the record made of its other columns. -/
structure Row where
  id : String
  rev : ℕ
  record : Json

structure OrgProfile where
  rev : ℕ
  record : Json

structure SiteRow where
  rev : ℕ
  initializedAt : Option String
  record : Json

structure Operator extends Row where
  active : Bool

structure OperatorBadge extends Row where
  revokedAt : Option String

structure Product extends Row where
  photoRev : ℕ

structure CategoryDefault where
  chzGroupCode : ℕ
  purpose : String
  rev : ℕ
  record : Json

/-- `<code>:<purpose>`. -/
def CategoryDefault.id (d : CategoryDefault) : String := toString d.chzGroupCode ++ ":" ++ d.purpose

/-- What says that a record left the feed. -/
structure Tombstone where
  entity : String
  id : String
  rev : ℕ

/-- The feed's tables as one read transaction sees them, with the host's revision. -/
structure Tables where
  revision : ℕ
  orgProfile : Option OrgProfile
  site : Option SiteRow
  lines : List Row
  operators : List Operator
  operatorBadges : List OperatorBadge
  products : List Product
  labelTemplates : List Row
  categoryTemplateDefaults : List CategoryDefault
  codeReleases : List Row
  tombstones : List Tombstone

/-! ## Keys -/

structure Key where
  entity : String
  id : String
  rev : ℕ
  deleted : Bool
  deriving DecidableEq, Repr

/-- What the feed is ordered by: `ORDER BY rev, entity, id, deleted DESC`. -/
def Key.order (k : Key) : ℕ ×ₗ String ×ₗ String ×ₗ Bool :=
  toLex (k.rev, toLex (k.entity, toLex (k.id, !k.deleted)))

/-- The ids and revisions of the records of each entity that are in the feed. -/
def Tables.live (t : Tables) : List (String × List (String × ℕ)) :=
  [("org_profile", t.orgProfile.toList.map fun r => ("1", r.rev)),
    ("site", (t.site.toList.filter fun r => r.initializedAt.isSome).map fun r => ("1", r.rev)),
    ("lines", t.lines.map fun r => (r.id, r.rev)),
    ("operators", (t.operators.filter (·.active)).map fun r => (r.id, r.rev)),
    ("operator_badges",
      (t.operatorBadges.filter fun r => r.revokedAt.isNone).map fun r => (r.id, r.rev)),
    ("products", (t.products.map fun r => (r.id, r.rev)) ++
      (t.products.filter fun r => r.photoRev ≠ r.rev).map fun r => (r.id, r.photoRev)),
    ("label_templates", t.labelTemplates.map fun r => (r.id, r.rev)),
    ("category_template_defaults", t.categoryTemplateDefaults.map fun r => (r.id, r.rev)),
    ("code_releases", t.codeReleases.map fun r => (r.id, r.rev))]

def Tables.allKeys (t : Tables) : List Key :=
  (t.live.flatMap fun table => table.2.map fun r => ⟨table.1, r.1, r.2, false⟩) ++
    t.tombstones.map fun r => ⟨r.entity, r.id, r.rev, true⟩

def Tables.feedKeys (t : Tables) (since : ℕ) : List Key :=
  t.allKeys.filter fun key => since < key.rev

/-- The feed's keys after `since`, oldest first. -/
def Tables.sortedKeys (t : Tables) (since : ℕ) : List Key :=
  (t.feedKeys since).insertionSort fun a b => a.order ≤ b.order

/-! ## Items -/

structure ChangeItem where
  entity : String
  id : String
  rev : ℕ
  deleted : Bool
  data : Option Json

/-- The live record behind a feed key. -/
def Tables.record (t : Tables) (entity id : String) : Option Json :=
  match entity with
  | "org_profile" => t.orgProfile.map (·.record)
  | "site" => t.site.map (·.record)
  | "lines" => (t.lines.find? fun r => r.id = id).map (·.record)
  | "operators" => (t.operators.find? fun r => r.id = id).map (·.record)
  | "operator_badges" => (t.operatorBadges.find? fun r => r.id = id).map (·.record)
  | "products" => (t.products.find? fun r => r.id = id).map (·.record)
  | "label_templates" => (t.labelTemplates.find? fun r => r.id = id).map (·.record)
  | "category_template_defaults" =>
    (t.categoryTemplateDefaults.find? fun r => r.id = id).map (·.record)
  | "code_releases" => (t.codeReleases.find? fun r => r.id = id).map (·.record)
  | _ => none

def Tables.item (t : Tables) (key : Key) : Option ChangeItem :=
  if key.deleted then some ⟨key.entity, key.id, key.rev, true, none⟩
  else (t.record key.entity key.id).map fun data => ⟨key.entity, key.id, key.rev, false, some data⟩

/-! ## Pages -/

structure Page where
  keys : List Key
  moreAfter : Option ℕ

/-- Up to `limit` keys after `since`, cut only between revisions. When one revision alone is larger
than a page, it comes whole. -/
def Tables.page (t : Tables) (since limit : ℕ) : Page :=
  let fetched := (t.sortedKeys since).take (limit + 1)
  match fetched[limit - 1]?, fetched[limit]? with
  | some key, some next =>
    let last := key.rev
    if next.rev ≠ last then ⟨fetched.take limit, some last⟩
    else
      let whole := (fetched.take limit).filter fun key => key.rev < last
      match whole.getLast? with
      | some key => ⟨whole, some key.rev⟩
      | none => ⟨(t.sortedKeys since).filter fun key => key.rev = last, some last⟩
  | _, _ => ⟨fetched, none⟩

/-- The page's records, ending before the first revision that would take them past
`MAX_PAGE_BYTES` of JSON; the first revision comes whole, however large. -/
def Tables.withinBudget (t : Tables) (size : ChangeItem → ℕ) (moreAfter : Option ℕ)
    (items : List ChangeItem) (bytes : ℕ) (keys : List Key) :
    Option (List ChangeItem × Option ℕ) :=
  match keys with
  | [] => some (items, moreAfter)
  | key :: rest => do
    let revision ← (key :: rest.takeWhile fun k => k.rev = key.rev).mapM t.item
    let revisionBytes := (revision.map size).sum
    if items ≠ [] ∧ maxPageBytes < bytes + revisionBytes then
      some (items, items.getLast?.map (·.rev))
    else
      t.withinBudget size moreAfter (items ++ revision) (bytes + revisionBytes)
        (rest.dropWhile fun k => k.rev = key.rev)
  termination_by keys.length
  decreasing_by
    have := (List.dropWhile_suffix (l := rest) fun k : Key => decide (k.rev = key.rev)).length_le
    simp only [List.length_cons]
    omega

/-! ## The request -/

structure ChangesQuery where
  since : Option ℤ
  limit : Option ℕ

structure ChangesResponse where
  hostId : String
  rev : ℕ
  hasMore : Bool
  items : List ChangeItem

/-- `GET /v1/changes`. -/
def changes (size : ChangeItem → ℕ) (hostId : String) (t : Tables) (query : ChangesQuery) :
    Except ApiError ChangesResponse :=
  let since := query.since.getD 0
  let limit := query.limit.getD defaultLimit
  if since < 0 then .error (.validation "since")
  else if limit < 1 ∨ maxLimit < limit then .error (.validation "limit")
  else
    let page := t.page since.toNat limit
    match t.withinBudget size page.moreAfter [] 0 page.keys with
    | none => .error .internal
    | some (items, moreAfter) =>
      .ok {
        hostId
        rev := moreAfter.getD t.revision
        hasMore := moreAfter.any fun rev => rev < t.revision
        items }

end Markiro.Feed
