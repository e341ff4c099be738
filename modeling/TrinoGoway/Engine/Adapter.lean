import TrinoGoway.Engine.Pipeline
import TrinoGoway.Routing.Types
import TrinoGoway.SqlMeta.Heuristic

/-! From the request of the `Route` RPC to the input of the pipeline, with the analysis of its
SQL. -/
namespace TrinoGoway.Engine

open Go SqlMeta

/-- The protobuf request, as received: a message inside it may be missing. -/
structure RouteRequest where
  trinoQueryProperties : Option (Routing.TrinoQueryProperties GoString)
  trinoRequestUser : Option (Routing.TrinoRequestUser GoString)
  method : GoString
  requestUri : GoString
  remoteAddr : GoString
  parameterMap : GoMap GoString
  trinoSource : GoString
  clientTags : List GoString

def fromProto (req : RouteRequest) : RouteInput :=
  let input : RouteInput :=
    { source := req.trinoSource
      clientTags := req.clientTags
      method := req.method
      uri := req.requestUri
      remoteAddr := req.remoteAddr
      paramMap := req.parameterMap }
  let input :=
    match req.trinoRequestUser with
    | none => input
    | some u => { input with user := u.user }
  match req.trinoQueryProperties with
  | none => input
  | some qp =>
    { input with
      catalog := qp.defaultCatalog
      schema := qp.defaultSchema
      body := qp.body
      isNew := qp.isNewQuerySubmission
      queryType := qp.queryType
      catalogs := qp.catalogs
      schemas := qp.schemas
      catalogSchemas := qp.catalogSchemas
      tables := qp.tables
      parseOK := qp.isQueryParsingSuccessful }

def RouteInput.hasParsedSQL (input : RouteInput) : Bool :=
  input.parseOK || !input.queryType.isEmpty || !input.catalogs.isEmpty || !input.schemas.isEmpty ||
    !input.catalogSchemas.isEmpty || !input.tables.isEmpty

/-- `CategoryForType`; `upperText` is `strings.ToUpper`. -/
def categoryForType (upperText : GoString → GoString) (queryType : GoString) : Category :=
  categoryFor (upperText (trimSpace queryType))

def fillSQLMeta (analyzer : SQLAnalyzer) (input : RouteInput) : RouteInput :=
  if !input.isNew || input.body.isEmpty || input.hasParsedSQL then input
  else
    let m := analyzer input.body input.catalog input.schema
    { input with
      queryType := m.queryType
      queryCategory := some m.category
      catalogs := m.catalogs
      schemas := m.schemas
      catalogSchemas := m.catalogSchemas
      tables := m.tables
      parseOK := m.parseOK }

def inputFromProto (upperText : GoString → GoString) (analyzer : SQLAnalyzer)
    (req : RouteRequest) : RouteInput :=
  let input := fromProto req
  let input :=
    if input.hasParsedSQL && !input.queryType.isEmpty && input.queryCategory.isNone then
      { input with queryCategory := some (categoryForType upperText input.queryType) }
    else input
  fillSQLMeta analyzer input

end TrinoGoway.Engine
