import RecordApi.Proofs.Api.Matching
import RecordApi.Proofs.Query.Pages
import RecordApi.Proofs.Storage.Paging

/-!
# A page of a list

A list request that asks for a page and nothing else shows the rows of its table from the offset of
the page on, as many as the page has room for, whatever texts name the number and the size of the
page.  The database takes a limit and an offset only if they are words.
-/

namespace RecordApi

open Steps Storage

/-! ## Requests for a page -/

namespace Params

variable {items : List (String × String)} {number size : String}

/-- What a request says that asks for a page. -/
def Contents.ofPage (number size : String) : Contents where
  page := some number
  pageSize := some size

theorem tellable_ofPage (number size : String) : (Contents.ofPage number size).Tellable where
  filters := nofun
  fields := nofun
  relations := nofun
  relationFields := nofun
  relationFilters := nofun
  relationSort := nofun

theorem rootOf_name
    {name : String} (hname : Key.isName name = true) (text : String) :
    rootOf (name, text) = name := by
  unfold rootOf
  rw [split_name hname]
  rfl

theorem encodedBy_ofPage
    (hitems : items.Perm [("page", number), ("pageSize", size)]) :
    (Contents.ofPage number size).EncodedBy items := by
  have hroots : ∀ item ∈ items, rootOf item = item.1 ∧ item.1 ∈ Contents.parameters := by
    intro item hitem
    rw [hitems.mem_iff] at hitem
    simp only [List.mem_cons, List.not_mem_nil, or_false] at hitem
    rcases hitem with rfl | rfl
    · exact ⟨rootOf_name (by decide) number, show "page" ∈ _ by decide⟩
    · exact ⟨rootOf_name (by decide) size, show "pageSize" ∈ _ by decide⟩
  have hperm (name : String) : (itemsOf name items).Perm
      ([("page", number), ("pageSize", size)].filter fun item => item.1 == name) := by
    unfold itemsOf
    rw [List.filter_congr fun item hitem => congrArg (· == name) (hroots item hitem).1]
    exact hitems.filter _
  constructor
  · intro item hitem
    rcases hroots item hitem with ⟨hroot, hmem⟩
    exact hroot.symm ▸ hmem
  · exact (hperm "filters").eq_nil
  · exact (hperm "sort").eq_nil
  · exact List.perm_singleton.mp (hperm "page")
  · exact List.perm_singleton.mp (hperm "pageSize")
  · exact (hperm "fields").eq_nil
  · exact (hperm "relations").eq_nil
  · exact (hperm "relationFields").eq_nil
  · exact (hperm "relationFilters").eq_nil
  · exact (hperm "relationSort").eq_nil

theorem decode_page
    (hitems : items.Perm [("page", number), ("pageSize", size)]) :
    decode items = .ok { page := .text number, pageSize := .text size } :=
  decode_of_encoded (tellable_ofPage number size) (encodedBy_ofPage hitems)

end Params

/-! ## Pages -/

namespace Page

/-- A parameter is at least one if the default is. -/
theorem one_le_getD
    (v : Value) {n : Int} (hdefault : 1 ≤ n) :
    1 ≤ (parameter? v).getD n := by
  cases h : parameter? v with
  | none => exact hdefault
  | some m => exact (isWhole_of_parameter? h).one_le

/-- The rows that a page shows, of all rows. -/
def rows (page : Page) (all : List Row) : List Row :=
  (all.drop page.offset.toNat).take page.limit.toNat

theorem length_rows
    {page : Page}
    (hlimit : 0 ≤ page.limit) (hoffset : 0 ≤ page.offset) (all : List Row) :
    ((page.rows all).length : Int) = min page.limit (max 0 (all.length - page.offset)) := by
  unfold rows
  rw [List.length_take, List.length_drop]
  omega

theorem slice_eq_rows
    {page : Page}
    (hlimit : 0 ≤ page.limit) (all : List Row) :
    slice (some page.limit) (some page.offset) all = page.rows all := by
  unfold slice
  dsimp only
  rw [if_neg (Int.not_lt.mpr hlimit)]
  rfl

/-- The pages of so many rows are counted exactly for every size that is a word. -/
theorem count_of_fitsWord
    {total : Nat} {size : Int}
    (htotal : total ≤ 2 ^ 53) (hsize : 1 ≤ size) (hfits : fitsWord size = true) :
    count total size = .ok ⌈(total : ℚ) / size⌉ := by
  have hbinade : 2 * Binary64.binade = 2 ^ 53 := by decide
  have hlimit : wordLimit ≤ ((2 * Binary64.unitsPerOne : Nat) : Int) := by decide
  unfold fitsWord at hfits
  rw [Bool.and_eq_true, decide_eq_true_eq, decide_eq_true_eq] at hfits
  lift size to ℕ using by omega
  rw [Int.cast_natCast, ceil_div_eq (by omega)]
  exact count_eq (by omega) (by omega) (by omega)

end Page

/-! ## Queries for a page -/

namespace Store

variable {store : Store} {db : Database} {attributes : Option (List String)} {page : Page}

theorem checkBound_eq_ok_iff {n : Int} : checkBound (some n) = .ok () ↔ fitsWord n = true := by
  constructor
  · intro h
    by_cases hfits : fitsWord n = true
    · exact hfits
    · unfold checkBound at h
      rw [Option.all_some, if_neg hfits] at h
      cases h
  · exact checkBound_eq_ok

/-- A query without a filter and an order selects all rows in their order. -/
theorem selected_unfiltered (store : Store) (db : Database) (attributes : Option (List String)) :
    store.selected db { attributes := attributes } = db.rows store.model :=
  List.filter_eq_self.mpr fun _ _ => rfl

theorem runs_unfiltered
    (db : Database)
    (hfields : checkFields store.model store.name attributes = .ok ()) :
    store.Runs db (Query.paged { attributes := attributes } page) ⟨none, []⟩ [] where
  rendered := rfl
  projected := hfields
  ordered := rfl
  prepared := ⟨rfl, rfl⟩
  told := fun _ _ => ⟨true, rfl⟩

/-- A page of all rows is listed exactly when its fields are columns, its bounds are words and its
rows can be read. -/
theorem list_unfiltered_iff
    {listing : Listing}
    (hlimit : 0 ≤ page.limit) :
    store.list db (Query.paged { attributes := attributes } page) = .ok listing ↔
      checkFields store.model store.name attributes = .ok () ∧
      fitsWord page.limit = true ∧ fitsWord page.offset = true ∧
      (∀ row ∈ page.rows (db.rows store.model),
        ∃ shown, showRow store.model attributes row = .ok shown) ∧
      listing = ⟨store.shownRows attributes (page.rows (db.rows store.model)),
        (db.rows store.model).length⟩ := by
  have hselected : store.selected db (Query.paged { attributes := attributes } page) =
      db.rows store.model := by
    rw [selected_paged]
    exact selected_unfiltered store db attributes
  rw [list_eq_ok_iff, showRows_plain_iff rfl, hselected]
  dsimp only [Query.paged]
  rw [checkBound_eq_ok_iff, checkBound_eq_ok_iff, Page.slice_eq_rows hlimit]
  constructor
  · rintro ⟨⟨_, _, hruns⟩, hsize, hoffset, ⟨hread, hshown⟩, hcount⟩
    exact ⟨hruns.projected, hsize, hoffset, hread, congrArg₂ Listing.mk hshown hcount⟩
  · rintro ⟨hfields, hsize, hoffset, hread, rfl⟩
    exact ⟨⟨_, [], runs_unfiltered db hfields⟩, hsize, hoffset, ⟨hread, rfl⟩, rfl⟩

end Store

/-! ## Lists of a page -/

theorem Json.areFiniteTrees_eq_all (items : List Value) :
    areFiniteTrees items = items.all isFiniteTree := by
  induction items with
  | nil => rfl
  | cons v rest ih =>
      unfold areFiniteTrees
      rw [ih, List.all_cons]

namespace Resource

variable {r : Resource} {db : Database} {items : List (String × String)} {number size : Value}

/-- The fields that a list shows when a request names none. -/
def listedFields (r : Resource) : Option (List String) :=
  QueryBuilder.attributes none (r.defaults .gets).fields

/-- The page that two parameters ask for. -/
def askedPage (r : Resource) (number size : Value) : Page :=
  Page.compute number size r.config.defaultPage r.config.defaultPageSize

/-- The page is positive, and as many rows are on it as it has room for. -/
theorem length_rows_askedPage
    (number size : Value) (rows : List Row)
    (hnumber : 1 ≤ r.config.defaultPage) (hsize : 1 ≤ r.config.defaultPageSize) :
    1 ≤ (r.askedPage number size).number ∧ 1 ≤ (r.askedPage number size).size ∧
      (((r.askedPage number size).rows rows).length : Int) =
        min (r.askedPage number size).size (max 0 (rows.length -
          ((r.askedPage number size).number - 1) * (r.askedPage number size).size)) := by
  have hfirst : 1 ≤ (r.askedPage number size).number := Page.one_le_getD number hnumber
  have hroom : 1 ≤ (r.askedPage number size).size := Page.one_le_getD size hsize
  have hoffset : 0 ≤ (r.askedPage number size).offset :=
    Int.mul_nonneg (Int.sub_nonneg_of_le hfirst) (Int.le_of_lt hroom)
  have hlimit : 0 ≤ (r.askedPage number size).limit := Int.le_of_lt hroom
  exact ⟨hfirst, hroom, Page.length_rows hlimit hoffset rows⟩

/-- What a list shows of the rows of a page. -/
def shownOn (r : Resource) (db : Database) (page : Page) : List (Assoc Value) :=
  r.store.shownRows r.listedFields (page.rows (db.rows r.store.model))

/-- A list can show a page: the cells of its rows can be read, and JSON can hold what they show. -/
structure CanShow (r : Resource) (db : Database) (page : Page) : Prop where
  readable : ∀ row ∈ page.rows (db.rows r.store.model),
    ∃ own, showRow r.store.model r.listedFields row = .ok own
  finite : ∀ shown ∈ r.shownOn db page, Json.isFiniteTree (.map shown) = true

/-- What a list answers for a page of its rows. -/
def pageOf (r : Resource) (db : Database) (page : Page) : Value :=
  pagePayload ⟨r.shownOn db page, (db.rows r.store.model).length⟩
    page ⌈((db.rows r.store.model).length : ℚ) / page.size⌉

theorem isFiniteTree_pagePayload (listing : Listing) (page : Page) (pages : Int) :
    Json.isFiniteTree (pagePayload listing page pages) =
      listing.rows.all fun row => Json.isFiniteTree (.map row) := by
  change (Json.areFiniteTrees (listing.rows.map .map) && true) = _
  rw [Json.areFiniteTrees_eq_all, List.all_map, Bool.and_true]
  rfl

theorem decode_nil : decode [] = .ok {} := rfl

theorem listing_iff_of_decode
    {listing : Listing} {page : Page}
    (hdecode : decode items = .ok { page := number, pageSize := size }) :
    r.listing db items = .ok (listing, page) ↔
      r.store.list db (Query.paged { attributes := r.listedFields } (r.askedPage number size)) =
        .ok listing ∧ r.askedPage number size = page := by
  unfold Resource.listing
  rw [hdecode]
  change ((r.store.list db (Query.paged { attributes := r.listedFields }
    (r.askedPage number size))).mapError Failure.store >>= fun listing =>
      pure (listing, r.askedPage number size)) = _ ↔ _
  rw [bind_eq_ok]
  constructor
  · rintro ⟨found, hfound, hpair⟩
    cases hpair
    exact ⟨mapError_eq_ok.mp hfound, rfl⟩
  · rintro ⟨hfound, rfl⟩
    exact ⟨listing, mapError_eq_ok.mpr hfound, rfl⟩

theorem isFiniteTree_pageOf {page : Page} :
    Json.isFiniteTree (r.pageOf db page) = true ↔
      ∀ shown ∈ r.shownOn db page, Json.isFiniteTree (.map shown) = true := by
  unfold pageOf
  rw [isFiniteTree_pagePayload, List.all_eq_true]

/-- Where keys tell the rows of the table apart, a page can be shown where each row on it can. -/
theorem canShow_iff_of_tellsApart
    {page : Page}
    (hapart : TellsApart r.store.model (db.rows r.store.model)) :
    r.CanShow db page ↔ ∀ row ∈ page.rows (db.rows r.store.model),
      ∃ own, showRow r.store.model r.listedFields row = .ok own ∧
        Json.isFiniteTree (.map own) = true := by
  have hrows : page.rows (db.rows r.store.model) ⊆ db.rows r.store.model :=
    fun row hrow => List.mem_of_mem_drop (List.mem_of_mem_take hrow)
  have hshown (hread : ∀ row ∈ page.rows (db.rows r.store.model),
      ∃ own, showRow r.store.model r.listedFields row = .ok own) :=
    Store.shownRows_of_tellsApart hapart hrows hread
  constructor
  · rintro ⟨hread, hfinite⟩ row hrow
    rcases hread row hrow with ⟨own, hown⟩
    refine ⟨own, hown, hfinite own ?_⟩
    unfold shownOn
    rw [hshown hread, ← shownOf_of_showRow hown]
    exact List.mem_map_of_mem hrow
  · intro h
    have hread := fun row hrow => (h row hrow).imp fun _ => And.left
    refine ⟨hread, ?_⟩
    unfold shownOn
    rw [hshown hread, List.forall_mem_map]
    intro row hrow
    rcases h row hrow with ⟨own, hown, hfinite⟩
    rwa [shownOf_of_showRow hown]

/-- A list that asks for a page is shown exactly when its fields are columns, its bounds are words
and the page can be shown. -/
theorem list_iff_of_decode
    {data : Value}
    (hdecode : decode items = .ok { page := number, pageSize := size })
    (hsize : 1 ≤ r.config.defaultPageSize)
    (hcount : (db.rows r.store.model).length ≤ 2 ^ 53) :
    (r.list db items = .done data ∧ Json.isFiniteTree data = true) ↔
      checkFields r.store.model r.store.name r.listedFields = .ok () ∧
      (fitsWord (r.askedPage number size).size = true ∧
        fitsWord (r.askedPage number size).offset = true ∧
        r.CanShow db (r.askedPage number size)) ∧
      data = r.pageOf db (r.askedPage number size) := by
  have hpositive : 1 ≤ (r.askedPage number size).size := Page.one_le_getD size hsize
  have hlimit : 0 ≤ (r.askedPage number size).limit := Int.le_of_lt hpositive
  constructor
  · rintro ⟨hdone, hfinite⟩
    rcases listing_of_list hdone with ⟨listing, page, pages, hlisting, hcounted, rfl⟩
    rcases (listing_iff_of_decode hdecode).mp hlisting with ⟨hlist, rfl⟩
    rcases (Store.list_unfiltered_iff hlimit).mp hlist with ⟨hfields, hword, hoffset, hread, rfl⟩
    rw [Page.count_of_fitsWord hcount hpositive hword] at hcounted
    cases hcounted
    exact ⟨hfields, ⟨hword, hoffset, hread, isFiniteTree_pageOf.mp hfinite⟩, rfl⟩
  · rintro ⟨hfields, ⟨hword, hoffset, ⟨hread, hfinite⟩⟩, rfl⟩
    have hlist := (Store.list_unfiltered_iff hlimit).mpr ⟨hfields, hword, hoffset, hread, rfl⟩
    exact ⟨list_of_listing ((listing_iff_of_decode hdecode).mpr ⟨hlist, rfl⟩)
      (Page.count_of_fitsWord hcount hpositive hword), isFiniteTree_pageOf.mpr hfinite⟩

theorem isShown_list_iff
    (hdecode : decode items = .ok { page := number, pageSize := size })
    (hfields : checkFields r.store.model r.store.name r.listedFields = .ok ())
    (hsize : 1 ≤ r.config.defaultPageSize)
    (hcount : (db.rows r.store.model).length ≤ 2 ^ 53) :
    (r.list db items).IsShown ↔
      fitsWord (r.askedPage number size).size = true ∧
      fitsWord (r.askedPage number size).offset = true ∧
      r.CanShow db (r.askedPage number size) := by
  constructor
  · rintro ⟨data, hdata⟩
    exact ((list_iff_of_decode hdecode hsize hcount).mp hdata).2.1
  · intro hpage
    exact ⟨_, (list_iff_of_decode hdecode hsize hcount).mpr ⟨hfields, hpage, rfl⟩⟩

end Resource

/-! ## Requests and answers -/

namespace Application

open Http

variable {app : Application} {route : Route} {id plainId number size : String}
  {request plain : Request} {db : Database} {arguments : Assoc Value}

theorem successStatus_of_gets (hmethod : route.method = .gets) : route.successStatus = 200 := by
  unfold Route.successStatus
  rw [hmethod]

/-- A list request that reaches its method is answered with 200 exactly when its list is shown. -/
theorem serve_list_iff
    (db : Database)
    (hroute : app.route? request = some (route, id))
    (hmethod : route.method = .gets)
    (hadmits : route.Admits request arguments) :
    ((app.serve request db).1.response.status = 200 ↔
      (route.resource.list db request.items).IsShown) ∧
    ∀ data, route.resource.list db request.items = .done data → Json.isFiniteTree data = true →
      (app.serve request db).1.response.body = .json data := by
  have hserve := serve_of_admits db hroute hadmits
  rw [hmethod] at hserve
  rcases hserve with ⟨hstatus, hbody, _⟩
  rw [hstatus, hbody]
  refine ⟨⟨?_, ?_⟩, ?_⟩
  · intro h
    rw [← isSuccess_response_iff app route request]
    unfold Response.IsSuccess
    rw [h]
    decide
  · rintro ⟨data, hdone, hfinite⟩
    rw [hdone, response_of_isShown hfinite, successStatus_of_gets hmethod]
    rfl
  · intro data hdone hfinite
    rw [hdone, response_of_isShown hfinite]
    rfl

/-- A list that is answered has columns for its fields. -/
theorem checkFields_of_listed
    (hplain : app.route? plain = some (route, plainId))
    (htruthful : IsTruthful route plain)
    (hempty : plain.items = [])
    (hlisted : (app.serve plain db).1.response.status = 200)
    (hmethod : route.method = .gets)
    (hsize : 1 ≤ route.resource.config.defaultPageSize)
    (hcount : (db.rows route.resource.store.model).length ≤ 2 ^ 53) :
    checkFields route.resource.store.model route.resource.store.name
      route.resource.listedFields = .ok () := by
  rw [← successStatus_of_gets hmethod] at hlisted
  rcases shown_of_success hplain htruthful hlisted with ⟨_, _, _, hadmits, _⟩
  rw [successStatus_of_gets hmethod] at hlisted
  rcases (serve_list_iff db hplain hmethod hadmits).1.mp hlisted with ⟨data, hdone⟩
  rw [hempty] at hdone
  exact ((Resource.list_iff_of_decode Resource.decode_nil hsize hcount).mp hdone).1

/-- Where a list is answered, a page of it is answered exactly when its size and its offset are
words and it can be shown, whatever texts ask for it.  The answer holds the number and the size of
the page, both positive, all rows counted, the exact number of pages, and as many rows as the page
has room for. -/
theorem serve_page_iff
    (hplain : app.route? plain = some (route, plainId))
    (htruthful : IsTruthful route plain)
    (hempty : plain.items = [])
    (hlisted : (app.serve plain db).1.response.status = 200)
    (hroute : app.route? request = some (route, id))
    (hmethod : route.method = .gets)
    (hadmits : route.Admits request arguments)
    (hitems : request.items.Perm [("page", number), ("pageSize", size)])
    (hnumber : 1 ≤ route.resource.config.defaultPage)
    (hsize : 1 ≤ route.resource.config.defaultPageSize)
    (hcount : (db.rows route.resource.store.model).length ≤ 2 ^ 53) :
    let rows := db.rows route.resource.store.model
    let page := route.resource.askedPage (.text number) (.text size)
    ((app.serve request db).1.response.status = 200 ↔
      fitsWord page.size = true ∧ fitsWord page.offset = true ∧
        route.resource.CanShow db page) ∧
    ((app.serve request db).1.response.status = 200 →
      (app.serve request db).1.response.body = .json (route.resource.pageOf db page) ∧
      (route.resource.shownOn db page).length = (page.rows rows).length) ∧
    1 ≤ page.number ∧ 1 ≤ page.size ∧
    ((page.rows rows).length : Int) =
      min page.size (max 0 (rows.length - (page.number - 1) * page.size)) := by
  intro rows page
  have hfields := checkFields_of_listed hplain htruthful hempty hlisted hmethod hsize hcount
  have hdecode : Resource.decode request.items =
      .ok { page := .text number, pageSize := .text size } := by
    unfold Resource.decode
    rw [Params.decode_page hitems]
    rfl
  rcases serve_list_iff db hroute hmethod hadmits with ⟨hstatus, hbody⟩
  rw [Resource.isShown_list_iff hdecode hfields hsize hcount] at hstatus
  have hlength :=
    Resource.length_rows_askedPage (.text number) (.text size) rows hnumber hsize
  refine ⟨hstatus, ?_, hlength⟩
  intro h
  have hpage := (Resource.list_iff_of_decode hdecode hsize hcount).mpr
    ⟨hfields, hstatus.mp h, rfl⟩
  exact ⟨hbody _ hpage.1 hpage.2, Store.length_shownRows (hstatus.mp h).2.2.readable⟩

end Application

namespace Sample

open Http

def authorsRequest (items : List (String × String)) : Request where
  verb := "GET"
  path := "/authors/".toList
  items := items

def authorsPage (number size : String) : Request :=
  authorsRequest [("pageSize", size), ("page", number)]

/-- The third page has three rows, as all others have seven. -/
theorem serve_page_iff_authors :
    ((service schema.models).serve (authorsPage " 3 " "7.9") database).1.response.status = 200 ∧
      ((service schema.models).serve (authorsPage " 3 " "7.9") database).1.response.body =
        .json ((resource authors).pageOf database ⟨3, 7, 7, 14⟩) ∧
      ((Page.rows ⟨3, 7, 7, 14⟩ (database.rows authors)).length : Int) = 3 := by
  have hstatus : ((service schema.models).serve (authorsPage " 3 " "7.9")
      database).1.response.status = 200 := by
    decide +kernel
  have hlisted :
      ((service schema.models).serve (authorsRequest []) database).1.response.status = 200 := by
    decide +kernel
  have htruthful : Application.IsTruthful (route authors .gets) (authorsRequest []) := by
    intro rejection calls hrejects
    cases hrejects
  have hpage : (resource authors).askedPage (.text " 3 ") (.text "7.9") = ⟨3, 7, 7, 14⟩ := by
    decide +kernel
  have hcount : (database.rows authors).length = 17 := by decide
  have hplain : (service schema.models).route? (authorsRequest []) =
      some (route authors .gets, "") := by
    rfl
  have hroute : (service schema.models).route? (authorsPage " 3 " "7.9") =
      some (route authors .gets, "") := by
    rfl
  have hadmits : (route authors .gets).Admits (authorsPage " 3 " "7.9") [] :=
    ⟨.absent, [], rfl, rfl, rfl⟩
  have hanswer := Application.serve_page_iff hplain htruthful rfl hlisted hroute rfl hadmits
    (List.Perm.swap ("page", " 3 ") ("pageSize", "7.9") []) (by decide) (by decide)
    (hcount.symm ▸ by decide)
  rw [show (route authors .gets).resource = resource authors from rfl, hpage] at hanswer
  rcases hanswer with ⟨_, hbody, _, _, hlength⟩
  refine ⟨hstatus, (hbody hstatus).1, hlength.trans ?_⟩
  change min 7 (max 0 (((database.rows authors).length : Int) - (3 - 1) * 7)) = 3
  rw [hcount]
  rfl

/-- The offset of a far page is no word. -/
theorem far_page_fails :
    ((service schema.models).serve (authorsRequest []) database).1.response.status = 200 ∧
      ((service schema.models).serve (authorsPage "1e18" "10") database).1.response.status =
        500 := by
  constructor
  · decide +kernel
  · decide +kernel

end Sample
end RecordApi
