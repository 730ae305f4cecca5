import RecordApi.Schema.Model

/-!
# A sample schema

Nine models of a small publishing site, with every kind of column and join.
-/

namespace RecordApi
namespace Sample

def identity : Column := ⟨"id", "id", .integer, false, none, none⟩

/-- A column that must be given. -/
def required (key : String) (type : ColumnType) : Column :=
  ⟨key, key, type, false, none, none⟩

def optional (key : String) (type : ColumnType) : Column :=
  ⟨key, key, type, true, none, none⟩

/-- A column that refers to the `id` of a table. -/
def reference (key table : String) (nullable : Bool) : Column :=
  ⟨key, key, .integer, nullable, none, some ⟨table, "id"⟩⟩

def authors : Model where
  name := "Author"
  table := "authors"
  columns := [identity, required "name" (.varchar (some 80)), required "age" .integer]
  primaryKey := ["id"]
  relations := [⟨"posts", "Post", true, .held "author_id" "id"⟩]

def posts : Model where
  name := "Post"
  table := "posts"
  columns := [identity, required "title" (.varchar (some 120)),
    { required "published" .boolean with default := some (.bool false) },
    optional "created_on" .date, reference "author_id" "authors" false]
  primaryKey := ["id"]
  relations := [⟨"author", "Author", false, .holds "author_id" "id"⟩,
    ⟨"comments", "Comment", true, .held "post_id" "id"⟩,
    ⟨"labels", "Tag", true, .linked "post_tags" ⟨"post_id", .integer, "id"⟩
      ⟨"tag_code", .varchar (some 20), "code"⟩⟩]

def comments : Model where
  name := "Comment"
  table := "comments"
  columns := [identity, required "text" (.varchar (some 200)),
    { required "likes" .integer with default := some (.int 0) },
    reference "post_id" "posts" false]
  primaryKey := ["id"]
  relations := [⟨"post", "Post", false, .holds "post_id" "id"⟩]

def tags : Model where
  name := "Tag"
  table := "tags"
  columns := [⟨"code", "tag_code", .varchar (some 20), false, none, none⟩,
    optional "label" (.varchar (some 40))]
  primaryKey := ["code"]
  relations := []

def items : Model where
  name := "Item"
  table := "items"
  columns := [identity, optional "note" (.varchar (some 80)), optional "qty" .integer,
    optional "weight" .float, optional "price" (.numeric 10 2), optional "active" .boolean,
    optional "made_on" .date, optional "seen_at" .timestamp, optional "uid" .uuid,
    optional "kind" (.enumeration ["raw", "done"])]
  primaryKey := ["id"]
  relations := []

def nodes : Model where
  name := "Node"
  table := "nodes"
  columns := [identity, required "name" (.varchar (some 20)), reference "parent_id" "nodes" true]
  primaryKey := ["id"]
  relations := [⟨"parent", "Node", false, .holds "parent_id" "id"⟩,
    ⟨"children", "Node", true, .held "parent_id" "id"⟩]

def reviewers : Model where
  name := "Reviewer"
  table := "reviewers"
  columns := [identity, required "nick" (.varchar (some 20))]
  primaryKey := ["id"]
  relations := []

def reviews : Model where
  name := "Review"
  table := "reviews"
  columns := [identity, required "stars" .integer,
    reference "created_by_id" "reviewers" false, reference "updated_by_id" "reviewers" true]
  primaryKey := ["id"]
  relations := [⟨"created_by", "Reviewer", false, .holds "created_by_id" "id"⟩,
    ⟨"updated_by", "Reviewer", false, .holds "updated_by_id" "id"⟩]

def memberships : Model where
  name := "Membership"
  table := "memberships"
  columns := [required "user_id" .integer, required "group_id" .integer,
    required "role" (.varchar (some 20))]
  primaryKey := ["user_id", "group_id"]
  relations := []

def schema : Schema :=
  ⟨[authors, posts, comments, tags, items, nodes, reviewers, reviews, memberships]⟩

/-- Every model under the name of its table. -/
def registry : Registry :=
  schema.models.map fun model => (model.table, model.name)

/-- The part of the registry with the given names, in their order. -/
def registryOf (names : List String) : Registry :=
  names.filterMap fun name => (Assoc.get? registry name).map fun model => (name, model)

end Sample
end RecordApi
