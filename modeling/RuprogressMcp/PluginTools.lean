import RuprogressMcp.ManageTools
import RuprogressMcp.PagedReads
import RuprogressMcp.UploadRequests

/-!
# The managing tools of the plugins

Products, contacts and documents are each managed by one tool.  A list is one
explicit page, and an update names the fields that it changes.  Creating a
document takes two requests, and all its arguments are checked before the
first of them.
-/

namespace RuprogressMcp

open RedmineClient RequestProgram Tool

/-! ## Lists and updates -/

def clampLimit (limit : Option ℕ) : ℕ := max 1 (min (limit.getD 100) 100)

/-- The names of the fields that are given. -/
def givenFields (table : List (String × Bool)) : List String :=
  (table.filter Prod.snd).map Prod.fst

def requireUpdate (updatedFields : List String) : Except String Unit :=
  if updatedFields.isEmpty then
    .error "at least one field to update is required"
  else .ok ()

def oneOf (allowed : List ℕ) (message : String) :
    Option ℕ → Except String Unit
  | some n => if allowed.contains n then .ok () else .error (message ++ toString n)
  | none => .ok ()

def nonBlank (message : String) (text : String) : Except String Unit :=
  if isBlank text then .error message else .ok ()

def nonBlankIfGiven (message : String) : Option String → Except String Unit
  | some text => nonBlank message text
  | none => .ok ()

/-! ## `manage_product` -/

inductive ManageProductAction where
  | list | get | create | update
deriving DecidableEq

def ManageProductAction.asStr : ManageProductAction → String
  | .list => "list"
  | .get => "get"
  | .create => "create"
  | .update => "update"

structure ManageProductParams where
  action : ManageProductAction
  projectId : Option ProjectRef
  limit : Option ℕ
  offset : Option ℕ
  productId : Option ℕ
  name : Option String
  description : Option String
  code : Option String
  price : Option JsonNumber
  currency : Option String
  statusId : Option ℕ
  categoryId : Option ℕ
  tagList : Option (List String)
  customFields : Option (List CustomFieldEntry)

def productOut (env : ToolEnv) (p : Product) : Json :=
  .obj (JsonObject.ofFields [("id", Pagination.number p.id),
    ("name", wrapped env "product.name" p.name),
    ("description",
      optionToValue (wrapped env "product.description") p.description),
    ("code", optionToValue (wrapped env "product.code") p.code),
    ("price", optionToValue (fun n => .num (env.printers.float n)) p.price),
    ("currency", optionToValue Json.str p.currency),
    ("status_id", optionToValue Pagination.number p.statusId),
    ("category_id", optionToValue Pagination.number p.categoryId),
    ("project_id", optionToValue Pagination.number p.projectId),
    ("tag_list", optionToValue
      (fun tags => .arr (tags.map (wrapped env "product.tag"))) p.tagList),
    ("custom_fields", optionToValue
      (fun fields => .arr (fields.map (customFieldValueOut env)))
      p.customFields),
    ("created_on", optionToValue (instantOut env) p.createdOn),
    ("updated_on", optionToValue (instantOut env) p.updatedOn)])

structure ManageProductOutput where
  products : Option (List Product) := none
  pagination : Option Pagination := none
  product : Option Product := none
  updatedFields : Option (List String) := none

def ManageProductOutput.toValue (env : ToolEnv) (output : ManageProductOutput) :
    Json :=
  .obj (JsonObject.ofFields [("success", .bool true),
    ("products", optionToValue (fun ps => .arr (ps.map (productOut env)))
      output.products),
    ("pagination",
      optionToValue (fun p => .obj p.toObject) output.pagination),
    ("product", optionToValue (productOut env) output.product),
    ("updated_fields", optionToValue textList output.updatedFields)])

/-- The fields of a product that are given, as they are sent. -/
def ManageProductParams.writes (env : ToolEnv) (params : ManageProductParams)
    (projectId : Option ℕ) : JsonObject :=
  optionalField "name" Json.str params.name ++
  optionalField "description" Json.str params.description ++
  optionalField "code" Json.str params.code ++
  optionalField "price" (fun n => .num (env.printers.float n)) params.price ++
  optionalField "currency" Json.str params.currency ++
  optionalField "status_id" serializeU64 params.statusId ++
  optionalField "category_id" serializeU64 params.categoryId ++
  optionalField "project_id" serializeU64 projectId ++
  optionalField "tag_list" textList params.tagList ++
  optionalField "custom_fields" customFieldEntriesToWrite params.customFields

def ManageProductParams.body (env : ToolEnv) (params : ManageProductParams)
    (projectId : Option ℕ) : Json :=
  .obj [("product", .obj (params.writes env projectId))]

def ManageProductParams.updatedFields (params : ManageProductParams) :
    List String :=
  givenFields [("name", params.name.isSome),
    ("description", params.description.isSome), ("code", params.code.isSome),
    ("price", params.price.isSome), ("currency", params.currency.isSome),
    ("status_id", params.statusId.isSome),
    ("category_id", params.categoryId.isSome),
    ("tag_list", params.tagList.isSome),
    ("custom_fields", params.customFields.isSome)]

def listProducts (project : Option ProjectIdent) (limit offset : ℕ) :
    ClientProgram (Page Product) :=
  afterSuccess (send (.listProducts project (pageQuery .default limit offset)))
    fun envelope => .done (.ok (Envelope.page envelope))

def updateProduct (id : ℕ) (body : Json) : ClientProgram Product :=
  afterSuccess (send (.updateProduct (UInt64.ofNat id) body)) fun _ =>
    send (.getProduct (UInt64.ofNat id))

def validateStatusId : Option ℕ → Except String Unit :=
  oneOf [1, 2] "status_id must be 1 (Active) or 2 (Inactive), got "

/-- The project of a new product has to be given by its number. -/
def numericProject : Option ProjectIdent → Except String (Option ℕ)
  | some (.id id) => .ok (some id.toNat)
  | some (.identifier _) => .error ("project_id must be a numeric project id " ++
      "for manage_product, not a slug identifier")
  | none => .ok none

def manageProduct (env : ToolEnv) (params : ManageProductParams) :
    ToolProgram :=
  let output (output : ManageProductOutput) : ToolProgram :=
    answer (ok (output.toValue env) env.caps)
  let action := params.action.asStr
  let refusal := readOnlyRefusal "manage_product" action listOrGetInstead
  argument env.scopedClient fun _ =>
  match params.action with
  | .list =>
      argument (env.resolveOptionalRef params.projectId) fun project =>
      orToolError env (listProducts project (clampLimit params.limit)
        (params.offset.getD 0)) fun page =>
      output { products := some page.items
               pagination := some (Pagination.fromPage page) }
  | .get =>
      argument (requiredFor "product_id" action params.productId)
        fun productId =>
      orToolError env (send (.getProduct (UInt64.ofNat productId)))
        fun product => output { product := some product }
  | .create =>
      unlessReadOnly env refusal <|
      argument (requiredFor "name" action params.name) fun name =>
      argument (nonBlank "name must not be blank" name) fun _ =>
      argument (validateStatusId params.statusId) fun _ =>
      argument (env.resolveOptionalRef params.projectId) fun project =>
      argument (numericProject project) fun projectId =>
      orToolError env (send (.createProduct (params.body env projectId)))
        fun product => output { product := some product }
  | .update =>
      unlessReadOnly env refusal <|
      argument (requiredFor "product_id" action params.productId)
        fun productId =>
      argument (nonBlankIfGiven "name must not be blank if given" params.name)
        fun _ =>
      argument (validateStatusId params.statusId) fun _ =>
      argument (requireUpdate params.updatedFields) fun _ =>
      orToolError env (updateProduct productId (params.body env none))
        fun product =>
      output { product := some product
               updatedFields := some params.updatedFields }

/-! ## `manage_contact` -/

inductive ContactInclude where
  | notes | deals | contacts

def ContactInclude.asStr : ContactInclude → String
  | .notes => "notes"
  | .deals => "deals"
  | .contacts => "contacts"

inductive ManageContactAction where
  | list | get | create | update | delete | assignToProject | removeFromProject
deriving DecidableEq

def ManageContactAction.asStr : ManageContactAction → String
  | .list => "list"
  | .get => "get"
  | .create => "create"
  | .update => "update"
  | .delete => "delete"
  | .assignToProject => "assign_to_project"
  | .removeFromProject => "remove_from_project"

structure ManageContactParams where
  action : ManageContactAction
  projectId : Option ProjectRef
  search : Option String
  tags : Option String
  assignedToId : Option ℕ
  limit : Option ℕ
  offset : Option ℕ
  contactId : Option ℕ
  includes : Option (List ContactInclude)
  firstName : Option String
  lastName : Option String
  middleName : Option String
  company : Option String
  jobTitle : Option String
  phone : Option String
  email : Option String
  website : Option String
  skypeName : Option String
  birthday : Option String
  background : Option String
  address : Option ContactAddress
  isCompany : Option Bool
  visibility : Option ℕ

def contactAddressOut (a : ContactAddress) : Json :=
  .obj (JsonObject.ofFields [("street1", optionToValue Json.str a.street1),
    ("street2", optionToValue Json.str a.street2),
    ("city", optionToValue Json.str a.city),
    ("region", optionToValue Json.str a.region),
    ("country", optionToValue Json.str a.country),
    ("postcode", optionToValue Json.str a.postcode)])

def contactOut (env : ToolEnv) (c : Contact) : Json :=
  let display (kind : String) := optionToValue (wrapped env kind)
  .obj (JsonObject.ofFields [("id", Pagination.number c.id),
    ("first_name", display "contact.first_name" c.firstName),
    ("last_name", display "contact.last_name" c.lastName),
    ("middle_name", display "contact.middle_name" c.middleName),
    ("company", display "contact.company" c.company),
    ("job_title", display "contact.job_title" c.jobTitle),
    ("phone", optionToValue Json.str c.phone),
    ("email", optionToValue Json.str c.email),
    ("website", optionToValue Json.str c.website),
    ("skype_name", optionToValue Json.str c.skypeName),
    ("birthday", optionToValue Json.str c.birthday),
    ("background", display "contact.background" c.background),
    ("address", optionToValue contactAddressOut c.address),
    ("is_company", optionToValue Json.bool c.isCompany),
    ("tags", optionToValue
      (fun tags => .arr (tags.map (wrapped env "contact.tag"))) c.tags),
    ("visibility", optionToValue Pagination.number c.visibility),
    ("assigned_to", optionToValue
      (idNameOut env "contact.assigned_to.name") c.assignedTo),
    ("created_on", optionToValue (instantOut env) c.createdOn),
    ("updated_on", optionToValue (instantOut env) c.updatedOn)])

structure ManageContactOutput where
  contacts : Option (List Contact) := none
  pagination : Option Pagination := none
  contact : Option Contact := none
  updatedFields : Option (List String) := none
  deletedContactId : Option ℕ := none
  message : Option String := none

def ManageContactOutput.toValue (env : ToolEnv) (output : ManageContactOutput) :
    Json :=
  .obj (JsonObject.ofFields [("success", .bool true),
    ("contacts", optionToValue (fun cs => .arr (cs.map (contactOut env)))
      output.contacts),
    ("pagination",
      optionToValue (fun p => .obj p.toObject) output.pagination),
    ("contact", optionToValue (contactOut env) output.contact),
    ("updated_fields", optionToValue textList output.updatedFields),
    ("deleted_contact_id",
      optionToValue Pagination.number output.deletedContactId),
    ("message", optionToValue Json.str output.message)])

def addressWrite (a : ContactAddress) : Json :=
  .obj (optionalField "street1" Json.str a.street1 ++
    optionalField "street2" Json.str a.street2 ++
    optionalField "city" Json.str a.city ++
    optionalField "region" Json.str a.region ++
    optionalField "country" Json.str a.country ++
    optionalField "postcode" Json.str a.postcode)

def ManageContactParams.writes (params : ManageContactParams)
    (projectId : Option ProjectIdent) : JsonObject :=
  optionalField "first_name" Json.str params.firstName ++
  optionalField "last_name" Json.str params.lastName ++
  optionalField "middle_name" Json.str params.middleName ++
  optionalField "company" Json.str params.company ++
  optionalField "job_title" Json.str params.jobTitle ++
  optionalField "phone" Json.str params.phone ++
  optionalField "email" Json.str params.email ++
  optionalField "website" Json.str params.website ++
  optionalField "skype_name" Json.str params.skypeName ++
  optionalField "birthday" Json.str params.birthday ++
  optionalField "background" Json.str params.background ++
  optionalField "address_attributes" addressWrite params.address ++
  optionalField "is_company" Json.bool params.isCompany ++
  optionalField "visibility" serializeU64 params.visibility ++
  optionalField "assigned_to_id" serializeU64 params.assignedToId ++
  optionalField "project_id" (fun p => .str p.display) projectId

def ManageContactParams.body (params : ManageContactParams)
    (projectId : Option ProjectIdent) : Json :=
  .obj [("contact", .obj (params.writes projectId))]

def ManageContactParams.updatedFields (params : ManageContactParams) :
    List String :=
  givenFields [("first_name", params.firstName.isSome),
    ("last_name", params.lastName.isSome),
    ("middle_name", params.middleName.isSome),
    ("company", params.company.isSome), ("job_title", params.jobTitle.isSome),
    ("phone", params.phone.isSome), ("email", params.email.isSome),
    ("website", params.website.isSome),
    ("skype_name", params.skypeName.isSome),
    ("birthday", params.birthday.isSome),
    ("background", params.background.isSome),
    ("address", params.address.isSome),
    ("is_company", params.isCompany.isSome),
    ("visibility", params.visibility.isSome),
    ("assigned_to_id", params.assignedToId.isSome)]

def insertOptional (query : Query) (key : String) :
    Option String → Query
  | some value => query.insert key value
  | none => query

def ManageContactParams.toQuery (params : ManageContactParams)
    (projectId : Option ProjectIdent) : Query :=
  let query := insertOptional .default "project_id"
    (projectId.map ProjectIdent.display)
  let query := insertOptional query "search" params.search
  let query := insertOptional query "tags" params.tags
  insertOptional query "assigned_to_id"
    (params.assignedToId.map toString)

def listContacts (query : Query) (limit offset : ℕ) :
    ClientProgram (Page Contact) :=
  afterSuccess (send (.listContacts (pageQuery query limit offset)))
    fun envelope => .done (.ok (Envelope.page envelope))

def getContact (id : ℕ) (includes : List ContactInclude) :
    ClientProgram Contact :=
  send (.getContact (UInt64.ofNat id)
    (if includes.isEmpty then .default
    else Query.default.insert "include"
      (String.intercalate "," (includes.map ContactInclude.asStr))))

def updateContact (id : ℕ) (body : Json) : ClientProgram Contact :=
  afterSuccess (send (.updateContact (UInt64.ofNat id) body)) fun _ =>
    getContact id []

def projectAssocBody (project : ProjectIdent) : Json :=
  .obj [("project", .obj [("project_id", .str project.display)])]

def validateVisibility : Option ℕ → Except String Unit :=
  oneOf [0, 1, 2]
    "visibility must be 0 (Project), 1 (Public), or 2 (Private), got "

def ToolEnv.requireProjectIdent (env : ToolEnv) (action : String)
    (ref : Option ProjectRef) : Except String ProjectIdent := do
  let ref ← requiredFor "project_id" action ref
  env.resolveRef ref

def manageContact (env : ToolEnv) (params : ManageContactParams) :
    ToolProgram :=
  let output (output : ManageContactOutput) : ToolProgram :=
    answer (ok (output.toValue env) env.caps)
  let action := params.action.asStr
  let refusal := readOnlyRefusal "manage_contact" action listOrGetInstead
  argument env.scopedClient fun _ =>
  match params.action with
  | .list =>
      argument (env.resolveOptionalRef params.projectId) fun project =>
      orToolError env (listContacts (params.toQuery project)
        (clampLimit params.limit) (params.offset.getD 0)) fun page =>
      output { contacts := some page.items
               pagination := some (Pagination.fromPage page) }
  | .get =>
      argument (requiredFor "contact_id" action params.contactId)
        fun contactId =>
      orToolError env (getContact contactId (params.includes.getD []))
        fun contact => output { contact := some contact }
  | .create =>
      unlessReadOnly env refusal <|
      argument (requiredFor "first_name" action params.firstName)
        fun firstName =>
      argument (nonBlank "first_name must not be blank" firstName) fun _ =>
      argument (validateVisibility params.visibility) fun _ =>
      argument (env.requireProjectIdent action params.projectId)
        fun project =>
      orToolError env (send (.createContact (params.body (some project))))
        fun contact => output { contact := some contact }
  | .update =>
      unlessReadOnly env refusal <|
      argument (requiredFor "contact_id" action params.contactId)
        fun contactId =>
      argument (nonBlankIfGiven "first_name must not be blank if given"
        params.firstName) fun _ =>
      argument (validateVisibility params.visibility) fun _ =>
      argument (requireUpdate params.updatedFields) fun _ =>
      orToolError env (updateContact contactId (params.body none))
        fun contact =>
      output { contact := some contact
               updatedFields := some params.updatedFields }
  | .delete =>
      unlessReadOnly env refusal <|
      argument (requiredFor "contact_id" action params.contactId)
        fun contactId =>
      orToolError env (send (.deleteContact (UInt64.ofNat contactId)))
        fun _ => output { deletedContactId := some contactId }
  | .assignToProject =>
      unlessReadOnly env refusal <|
      argument (requiredFor "contact_id" action params.contactId)
        fun contactId =>
      argument (env.requireProjectIdent action params.projectId)
        fun project =>
      orToolError env (send (.assignContactToProject (UInt64.ofNat contactId)
        (projectAssocBody project))) fun _ =>
      output { message := some ("the contact was associated with the " ++
        "project; it was not created by this call") }
  | .removeFromProject =>
      unlessReadOnly env refusal <|
      argument (requiredFor "contact_id" action params.contactId)
        fun contactId =>
      argument (env.requireProjectIdent action params.projectId)
        fun project =>
      orToolError env (send (.removeContactFromProject
        (UInt64.ofNat contactId) project)) fun _ =>
      output { message := some ("the contact's association with the project " ++
        "was removed; the contact itself was not deleted") }

end RuprogressMcp
