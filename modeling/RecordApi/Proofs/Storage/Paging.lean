import RecordApi.Proofs.Query.Paging
import RecordApi.Proofs.Storage.Lookup
import RecordApi.Proofs.Storage.Requiring

/-!
# Pages tile a listing

A page shows a slice of the rows that its query selects and counts all of them.  The pages of one
size, put one behind the other, show what the query shows without a slice.
-/

namespace RecordApi

open Steps

namespace Query

/-- The query for one page of its rows. -/
def paged (query : Query) (page : Page) : Query :=
  { query with limit := some page.limit, offset := some page.offset }

end Query

/-! ## Slices -/

/-- By induction on the number of slices: a list is taken in pieces of one length. -/
theorem flatMap_slices {α : Type} (items : List α) (size count : Nat) :
    ((List.range' 1 count).flatMap fun k => (items.drop ((k - 1) * size)).take size) =
      items.take (count * size) := by
  induction count with
  | zero => simp
  | succ count ih =>
      rw [List.range'_1_concat, List.flatMap_append, ih, Nat.add_mul, Nat.one_mul, List.take_add]
      simp

namespace Store

open Storage

variable {store : Store} {db : Database} {query : Query} {all : Listing}

theorem slice_page (limit offset : Nat) (rows : List Row) :
    slice (some (limit : Int)) (some (offset : Int)) rows = (rows.drop offset).take limit := by
  unfold slice
  dsimp only
  rw [if_neg (by omega)]
  rfl

theorem selected_paged (page : Page) :
    store.selected db (query.paged page) = store.selected db query := rfl

theorem checkBound_eq_ok {n : Int} (h : fitsWord n = true) : checkBound (some n) = .ok () := by
  unfold checkBound
  rw [Option.all_some, if_pos h]

theorem fitsWord_of_le {n : Nat} (h : n ≤ 2 * Binary64.binade) : fitsWord (n : Int) = true := by
  have hlimit : ((2 * Binary64.binade : Nat) : Int) < wordLimit := by decide
  unfold fitsWord
  simp only [Bool.and_eq_true, decide_eq_true_eq]
  omega

/-- A listed query can be listed page by page. -/
theorem list_paged
    {size offset : Nat} {page : Page}
    (hfaithful : store.Faithful db (query.inclusions.getD []))
    (hall : store.list db query.unpaged = .ok all)
    (hlimit : page.limit = size) (hoffset : page.offset = offset)
    (hsize : fitsWord size = true) (hfits : fitsWord offset = true) :
    store.list db (query.paged page) = .ok ⟨(all.rows.drop offset).take size, all.count⟩ := by
  rcases list_eq_ok_iff.mp hall with ⟨⟨selection, keys, hruns⟩, _, _, hshown, hcount⟩
  rw [slice_unpaged] at hshown
  have hrows := showRows_eq_ok hfaithful (selected_subset store db query.unpaged) hshown
  have hpage : slice (query.paged page).limit (query.paged page).offset
      (store.selected db (query.paged page)) =
        ((store.selected db query.unpaged).drop offset).take size := by
    show slice (some page.limit) (some page.offset) (store.selected db query.unpaged) = _
    rw [hlimit, hoffset, slice_page]
  have hsubset : ((store.selected db query.unpaged).drop offset).take size ⊆
      store.selected db query.unpaged :=
    List.Subset.trans (List.take_subset _ _) (List.drop_subset _ _)
  refine list_eq_ok_iff.mpr ⟨⟨selection, keys, ?_⟩, ?_, ?_, ?_, hcount⟩
  · exact ⟨hruns.rendered, hruns.projected, hruns.ordered, hruns.prepared, hruns.told⟩
  · exact checkBound_eq_ok (hlimit ▸ hsize)
  · exact checkBound_eq_ok (hoffset ▸ hfits)
  · rw [hpage, hrows, ← List.map_drop, ← List.map_take]
    exact showRows_of_subset hfaithful (selected_subset store db query.unpaged) hsubset hshown

/-- What the page of one number shows of a listing with so many pages. -/
structure IsPage (store : Store) (db : Database) (query : Query) (all : Listing) (size pages : Nat)
    (defaultNumber defaultSize : Int) (k : Nat) (tile : Listing) : Prop where
  numbered : (Page.compute (.int k) (.int size) defaultNumber defaultSize).number = k
  listed : store.list db
    (query.paged (Page.compute (.int k) (.int size) defaultNumber defaultSize)) = .ok tile
  counted : tile.count = all.count
  full : k < pages → tile.rows.length = size

/-- Pages tile a listing. -/
structure Tiles (store : Store) (db : Database) (query : Query) (all : Listing) (size : Nat)
    (defaultNumber defaultSize : Int) (tiles : List Listing) : Prop where
  counted : Page.count all.count size = .ok (tiles.length : Int)
  pages : List.Forall₂ (store.IsPage db query all size tiles.length defaultNumber defaultSize)
    (List.range' 1 tiles.length) tiles
  joined : tiles.flatMap (·.rows) = all.rows
  /-- A page with a greater number is empty, whatever value asked for it. -/
  beyond : ∀ number : Value,
    (tiles.length : Int) < (Page.compute number (.int size) defaultNumber defaultSize).number →
    fitsWord (Page.compute number (.int size) defaultNumber defaultSize).offset = true →
    store.list db (query.paged (Page.compute number (.int size) defaultNumber defaultSize)) =
      .ok ⟨[], all.count⟩

/-- Every selected row is listed once. -/
theorem rows_of_list
    (hfaithful : store.Faithful db (query.inclusions.getD []))
    (hall : store.list db query.unpaged = .ok all) :
    all.rows = (store.selected db query).map (store.answer db query) ∧
      all.rows.length = all.count := by
  rcases list_eq_ok_iff.mp hall with ⟨_, _, _, hshown, hcount⟩
  rw [slice_unpaged] at hshown
  have hrows := showRows_eq_ok hfaithful (selected_subset store db query.unpaged) hshown
  refine ⟨hrows, ?_⟩
  rw [hrows, List.length_map, hcount]

/-- The rows up to a page, and one page less. -/
theorem pages_bounds
    (total : Nat) {size : Nat}
    (hsize : 0 < size) :
    total ≤ (total + size - 1) / size * size ∧ (total + size - 1) / size * size < total + size := by
  have hbelow := Nat.div_mul_le_self (total + size - 1) size
  have habove := Nat.lt_mul_div_succ (total + size - 1) hsize
  rw [Nat.mul_succ, Nat.mul_comm] at habove
  omega

theorem isPage_of_list
    {size k : Nat} (defaultNumber defaultSize : Int)
    (hfaithful : store.Faithful db (query.inclusions.getD []))
    (hall : store.list db query.unpaged = .ok all)
    (hsize : 1 ≤ size) (hsize' : size ≤ 2 * Binary64.binade)
    (hcount : all.count ≤ 2 * Binary64.binade)
    (hk : 1 ≤ k) (hk' : k ≤ (all.count + size - 1) / size) :
    store.IsPage db query all size ((all.count + size - 1) / size) defaultNumber defaultSize k
      ⟨(all.rows.drop ((k - 1) * size)).take size, all.count⟩ := by
  have hlength := (rows_of_list hfaithful hall).2
  rcases pages_bounds all.count hsize with ⟨_, hbound⟩
  have hbefore : (k - 1) * size + size ≤ (all.count + size - 1) / size * size := by
    rw [← Nat.succ_mul]
    exact Nat.mul_le_mul_right _ (by omega)
  have hnumber : k - 1 ≤ (k - 1) * size := Nat.le_mul_of_pos_right _ hsize
  have hpage := Page.compute_int defaultNumber defaultSize hk (by omega) hsize hsize'
  constructor
  · rw [hpage]
  · rw [hpage]
    refine list_paged hfaithful hall rfl ?_ (fitsWord_of_le hsize') (fitsWord_of_le (by omega))
    show ((k : Int) - 1) * size = ((k - 1) * size : Nat)
    rw [Int.natCast_mul, Int.natCast_sub hk]
    rfl
  · rfl
  · intro hlast
    have hrest : k * size + size ≤ (all.count + size - 1) / size * size := by
      rw [← Nat.succ_mul]
      exact Nat.mul_le_mul_right _ hlast
    have hstep : k * size = (k - 1) * size + size := by
      rw [← Nat.succ_mul]
      congr 1
      omega
    rw [List.length_take, List.length_drop, hlength]
    omega

/-- Behind the last page there are no rows. -/
theorem list_beyond
    {size : Nat} {defaultNumber defaultSize : Int} {number : Value}
    (hfaithful : store.Faithful db (query.inclusions.getD []))
    (hall : store.list db query.unpaged = .ok all)
    (hsize : 1 ≤ size) (hsize' : size ≤ 2 * Binary64.binade)
    (hbeyond : (((all.count + size - 1) / size : Nat) : Int) <
      (Page.compute number (.int size) defaultNumber defaultSize).number)
    (hfits : fitsWord (Page.compute number (.int size) defaultNumber defaultSize).offset = true) :
    store.list db (query.paged (Page.compute number (.int size) defaultNumber defaultSize)) =
      .ok ⟨[], all.count⟩ := by
  have hlength := (rows_of_list hfaithful hall).2
  rcases pages_bounds all.count hsize with ⟨hmost, _⟩
  rcases Page.limit_compute number defaultNumber defaultSize hsize hsize' with ⟨hlimit, hmul⟩
  generalize Page.compute number (.int size) defaultNumber defaultSize = page at *
  generalize (all.count + size - 1) / size = pages at *
  have hoffset : page.offset = ((page.number.toNat - 1) * size : Nat) := by
    rw [hmul, Int.natCast_mul]
    congr 1
    omega
  have hbehind : all.rows.length ≤ (page.number.toNat - 1) * size := by
    rw [hlength]
    exact Nat.le_trans hmost (Nat.mul_le_mul_right _ (by omega))
  rw [hoffset] at hfits
  rw [list_paged hfaithful hall hlimit hoffset (fitsWord_of_le hsize') hfits,
    List.drop_eq_nil_of_le hbehind, List.take_nil]

end Store

namespace Sample

/-- The names of the grown authors, with the titles of their posts. -/
def grownAuthors : Query where
  filter := some (.condition ⟨"age", .known .gte, .int 18⟩)
  attributes := some ["name"]
  inclusions := some [⟨"posts", none, some ["title"], none, none, false⟩]
  limit := some 1

/-- The labels that a list of the bands shows. -/
def bandLabels (query : Query) : Option (List String) :=
  (bandStore.list bandDatabase query).toOption.map fun listing =>
    listing.rows.map fun (shown : Assoc Value) =>
      match Assoc.get? shown "label" with
      | some (.text label) => label
      | _ => ""

/-- The page of one band with a number. -/
def bandPage (number : Value) : Option (List String) :=
  bandLabels (Query.paged {} (Page.compute number (.int 1) 1 10))

end Sample
end RecordApi
