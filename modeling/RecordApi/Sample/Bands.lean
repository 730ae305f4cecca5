import RecordApi.Sample.Rows

/-!
# A sample with numbers as keys

Bands of offers, told apart by their price.  A price is shown with two places, so the two bands
of the sample show the same key.  Each offer has a grade, which it names by a number, and grades are
told apart by texts: both grades of the sample read as this number.
-/

namespace RecordApi
namespace Sample

def bands : Model where
  name := "Band"
  table := "bands"
  columns := [required "price" (.numeric 10 2), required "label" (.varchar none)]
  primaryKey := ["price"]
  relations := [⟨"offers", "Offer", true, .held "price" "price"⟩]

def offers : Model where
  name := "Offer"
  table := "offers"
  columns := [identity,
    { required "price" (.numeric 10 2) with foreign := some ⟨"bands", "price"⟩ },
    { required "grade" .integer with foreign := some ⟨"grades", "code"⟩ }]
  primaryKey := ["id"]
  relations := [⟨"band", "Band", false, .holds "price" "price"⟩,
    ⟨"grade", "Grade", false, .holds "grade" "code"⟩]

def grades : Model where
  name := "Grade"
  table := "grades"
  columns := [required "code" (.varchar none)]
  primaryKey := ["code"]
  relations := []

def bandSchema : Schema :=
  ⟨[bands, offers, grades]⟩

def bandRegistry : Registry :=
  bandSchema.models.map fun model => (model.table, model.name)

/-- A price of five thousandths more than another one. -/
def finePrice : Value :=
  .decimal (.finite false 1255 (-3))

/-- Two bands, one offer in the second, and two grades that it has. -/
def bandDatabase : Database where
  tables := [
    table bands [[priceOf false 125, .text "first"], [finePrice, .text "second"]],
    table offers [[.int 1, finePrice, .int 1]],
    table grades [[.text "1"], [.text "1.0"]]]
  links := []

def bandStore : Store :=
  ⟨bandSchema, bandRegistry, "bands", bands⟩

def offerStore : Store :=
  ⟨bandSchema, bandRegistry, "offers", offers⟩

end Sample
end RecordApi
