import ContentTypes.Declaration
import ContentTypes.Path

namespace ContentTypes.Docs

-- What an editor is shown of the field, as far as it is given, and where the field sits.
def ofField (path : Path) (id : String) (field : Field) : Docs where
  lines :=
    (field.label?.map ("Label: " ++ ·)).toList ++
    (field.placeholder?.map ("Placeholder: " ++ ·)).toList ++
    (field.catalog?.map ("Catalog: " ++ ·)).toList ++
    [s!"A field in {path.describe}.", "API ID Path: " ++ path.apiIdPath id]
  tags := []

def ofPosition (lead : String) (path : Path) : Docs := .line s!"{lead} {path.describe}"

end ContentTypes.Docs
