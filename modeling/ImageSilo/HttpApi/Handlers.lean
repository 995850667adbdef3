import ImageSilo.HttpApi.Authentication

/-! The login, the handlers that change accounts, tokens, aliases, images or settings or run maintenance,
and the two that read the session and the settings, each as a script with its body decoded. -/
namespace ImageSilo.Http

open Go Concurrent

variable (P : Platform)

section Auth

structure LoginRequest where
  email : GoString
  password : GoString

def writeRateLimited (retry : Int) : Answer :=
  .problem 429 "login_rate_limited" "Too many login attempts. Try again later."
    (some (retryAfterSeconds retry))

/-- The session the browser had is ended; if that fails the new one is ended too. -/
def rotateSession (r : Credentials) (token : GoString) : Handler Bool :=
  match r.sessionCookie with
  | none => pure true
  | some old =>
      if old = token then pure true
      else do
        match ← call (.logout old) with
        | .service (.loggedOut (.ok _)) => pure true
        | _ =>
            let _ ← call (.logout token)
            pure false

def completeLogin (r : Credentials) (accountKey addressKey : GoString) (result : LoggedIn) :
    Handler Answer := do
  if ← rotateSession r result.token then
    front (.resetAccount accountKey)
    front (.resetAddress addressKey)
    pure (.loggedIn result.identity result.token result.csrfToken)
  else pure (internalError "Unable to rotate administrator session.")

def accountKey (email : GoString) : GoString := str "account:" ++ P.toLower (trimSpace email)

def addressKey (address : GoString) : GoString := str "address:" ++ address

/-- The handler behind the limiters. -/
def admittedLogin (r : Credentials) (address email password : GoString) (now : Time) :
    Handler Answer := do
  match ← call (.login email password now) with
  | .service (.loggedIn (.ok result)) => completeLogin r (accountKey P email) (addressKey address) result
  | .service (.loggedIn (.error .invalidCredentials)) =>
      pure (writeError 401 "invalid_credentials" "Email or password is incorrect.")
  | _ => pure (internalError "Unable to complete login.")

def login (r : Credentials) (address : GoString) (body : Option LoginRequest) : Handler Answer :=
  match body with
  | none => pure (writeError 400 "invalid_request" "Invalid login request.")
  | some request =>
      let email := trimSpace request.email
      if email = [] ∨ 254 < email.length ∨ request.password = [] ∨
          maximumPasswordBytes < request.password.length then
        pure (writeError 400 "invalid_request" "Email or password has an invalid length.")
      else do
        let now ← timeNow
        let (allowed, retry) ← front (.allowAddress (addressKey address) now)
        if !allowed then pure (writeRateLimited retry)
        else do
          let (allowed, retry) ← front (.allowAccount (accountKey P email) now)
          if !allowed then pure (writeRateLimited retry)
          else admittedLogin P r address email request.password now

def current (r : Credentials) : Handler Answer :=
  guarded (requireSession P r false) fun principal =>
    match principal.session, r.csrfCookie with
    | some identity, some csrf =>
        if validateCSRF P identity csrf then pure (.session identity csrf)
        else
          pure (writeError 401 "invalid_session" "Administrator session is missing its CSRF token.")
    | _, _ =>
        pure (writeError 401 "invalid_session" "Administrator session is missing its CSRF token.")

def logout (r : Credentials) : Handler Answer :=
  guarded (requireSession P r true) fun principal => do
    match ← call (.logout principal.rawSessionToken) with
    | .service (.loggedOut (.ok _)) => pure .loggedOut
    | _ => pure (internalError "Unable to complete logout.")

structure ChangePasswordRequest where
  currentPassword : GoString
  newPassword : GoString

def changePasswordError : Error → Answer
  | .invalidCredentials => writeError 401 "invalid_credentials" "Current password is incorrect."
  | .passwordTooShort =>
      writeError 400 "password_too_short" "password must contain at least 12 bytes"
  | .passwordTooLong =>
      writeError 400 "invalid_request" "password must contain at most 1024 bytes"
  | _ => internalError "Unable to change password."

def changePassword (r : Credentials) (body : Option ChangePasswordRequest) : Handler Answer :=
  guarded (requireSession P r true) fun principal =>
    match body, principal.session with
    | some request, some identity =>
        if maximumPasswordBytes < request.currentPassword.length ∨
            maximumPasswordBytes < request.newPassword.length then
          pure (writeError 400 "invalid_request" "Password has an invalid length.")
        else do
          let now ← timeNow
          match ← call (.changePassword identity principal.rawSessionToken request.currentPassword
            request.newPassword now) with
          | .service (.passwordChanged (.ok _)) => pure .noContent
          | .service (.passwordChanged (.error e)) => pure (changePasswordError e)
          | _ => pure .unanswered
    | _, _ => pure (writeError 400 "invalid_request" "Invalid password change request.")

structure UpdateProfileRequest where
  displayName : GoString
  email : GoString

def updateProfileError : Error → Answer
  | .invalidDisplayName =>
      writeError 400 "invalid_profile" "display name must contain 1 to 80 characters"
  | .invalidEmail => writeError 400 "invalid_profile" "invalid administrator email address"
  | .adminExists => writeError 409 "email_conflict" "Administrator email is already in use."
  | _ => internalError "Unable to update administrator profile."

def updateProfile (r : Credentials) (body : Option UpdateProfileRequest) : Handler Answer :=
  guarded (requireSession P r true) fun principal =>
    match body, principal.session with
    | some request, some identity => do
        let now ← timeNow
        match ← call (.updateProfile identity request.displayName request.email now) with
        | .service (.profileUpdated (.ok identity)) =>
            match r.csrfCookie with
            | none =>
                pure (writeError 401 "invalid_session"
                  "Administrator session is missing its CSRF token.")
            | some csrf => pure (.session identity csrf)
        | .service (.profileUpdated (.error e)) => pure (updateProfileError e)
        | _ => pure .unanswered
    | _, _ => pure (writeError 400 "invalid_request" "Invalid profile request.")

end Auth

section Tokens

structure CreateTokenRequest where
  name : GoString
  scopes : List (Option ApiToken.Scope)
  expiresAt : Option Time

def createTokenError : Error → Answer
  | .invalidName => writeError 400 "invalid_api_token" "API token name must contain 1 to 100 characters"
  | .invalidScope => writeError 400 "invalid_api_token" "invalid API token scope"
  | .invalidExpiration => writeError 400 "invalid_api_token" "API token expiration must be in the future"
  | _ => internalError "Unable to create API token."

def createToken (r : Credentials) (body : Option CreateTokenRequest) : Handler Answer :=
  guarded (requireSession P r true) fun _ =>
    match body with
    | none => pure (writeError 400 "invalid_request" "Invalid API token request.")
    | some request => do
        let now ← timeNow
        match ← call (.createToken request.name request.scopes request.expiresAt now) with
        | .service (.tokenCreated (.ok (token, plaintext))) => pure (.tokenCreated token plaintext)
        | .service (.tokenCreated (.error e)) => pure (createTokenError e)
        | _ => pure .unanswered

def revokeToken (r : Credentials) (tokenID : GoString) : Handler Answer :=
  guarded (requireSession P r true) fun _ => do
    match ← call (.revokeToken tokenID) with
    | .service (.tokenRevoked (.ok _)) => pure .noContent
    | .service (.tokenRevoked (.error .tokenNotFound)) =>
        pure (writeError 404 "api_token_not_found" "API token was not found or is already revoked.")
    | _ => pure (internalError "Unable to revoke API token.")

end Tokens

section Aliases

structure CreateAliasRequest where
  path : GoString
  imageID : GoString
  source : GoString

def aliasServiceError : Error → Answer
  | .aliasPath e => writeError 400 "invalid_alias" (Uploads.errorText (.aliasPath e))
  | .invalidTargetImage => writeError 400 "invalid_alias" "target image id is invalid"
  | .invalidSource => writeError 400 "invalid_alias" "alias source is invalid"
  | .aliasConflict => writeError 409 "alias_conflict" "Alias path already exists."
  | .aliasNotFound => writeError 404 "alias_not_found" "Alias was not found."
  | .targetImageNotFound => writeError 404 "image_not_found" "Target image was not found."
  | _ => internalError "Unable to update aliases."

def createAlias (r : Credentials) (body : Option CreateAliasRequest) : Handler Answer :=
  guarded (requireScope P .post r .aliasesWrite) fun _ =>
    match body with
    | none => pure (writeError 400 "invalid_request" "Invalid alias request.")
    | some request => do
        let now ← timeNow
        match ← call (.createAlias request.path request.imageID request.source now) with
        | .service (.aliasCreated (.ok value)) => pure (.aliasCreated value)
        | .service (.aliasCreated (.error e)) => pure (aliasServiceError e)
        | _ => pure .unanswered

def deleteAlias (r : Credentials) (aliasID : GoString) : Handler Answer :=
  guarded (requireScope P .delete r .aliasesWrite) fun _ => do
    match ← call (.deleteAlias aliasID) with
    | .service (.aliasDeleted (.ok _)) => pure .noContent
    | .service (.aliasDeleted (.error e)) => pure (aliasServiceError e)
    | _ => pure .unanswered

end Aliases

section Images

def imageNotFound : Answer := writeError 404 "image_not_found" "Image was not found."

def deleteImage (r : Credentials) (imageID : GoString) : Handler Answer :=
  guarded (requireScope P .delete r .imagesDelete) fun _ => do
    match ← call (.deleteImage imageID) with
    | .service (.imageDeleted (.ok result)) => pure (.deleted result)
    | .service (.imageDeleted (.error .imageNotFound)) => pure imageNotFound
    | _ => pure (internalError "Unable to permanently delete image.")

/-- `none` unless the values are canonical and distinct. -/
def uniqueImageIDs (seen : List GoString) : List GoString → Option (List GoString)
  | [] => some []
  | value :: values =>
      if !P.isCanonicalUUID value then none
      else if seen.contains value then none
      else (uniqueImageIDs (value :: seen) values).map (value :: ·)

def deletedItem (id : GoString) : Outcome → BatchOperationItem
  | .service (.imageDeleted (.ok result)) =>
      if result.cleanupPending then ⟨id, "cleanup_pending", true, ""⟩ else ⟨id, "deleted", false, ""⟩
  | .service (.imageDeleted (.error .imageNotFound)) => ⟨id, "not_found", false, "image_not_found"⟩
  | _ => ⟨id, "error", false, "delete_failed"⟩

def updatedItem (id : GoString) : Outcome → BatchOperationItem
  | .service (.visibilityChanged (.ok true)) => ⟨id, "updated", false, ""⟩
  | .service (.visibilityChanged (.ok false)) => ⟨id, "not_found", false, "image_not_found"⟩
  | _ => ⟨id, "error", false, "visibility_failed"⟩

/-- One call after another, an item for each. -/
def eachImage (q : GoString → Request) (item : GoString → Outcome → BatchOperationItem) :
    List GoString → Handler (List BatchOperationItem)
  | [] => pure []
  | id :: ids => do
      let outcome ← call (q id)
      let items ← eachImage q item ids
      pure (item id outcome :: items)

def batchDelete (r : Credentials) (body : Option (List GoString)) : Handler Answer :=
  guarded (requireScope P .post r .imagesDelete) fun _ =>
    match body with
    | none => pure (writeError 400 "invalid_batch" "Batch delete requires 1 to 100 image IDs.")
    | some imageIDs =>
        if imageIDs = [] ∨ 100 < imageIDs.length then
          pure (writeError 400 "invalid_batch" "Batch delete requires 1 to 100 image IDs.")
        else
          match uniqueImageIDs P [] imageIDs with
          | none => pure (writeError 400 "invalid_batch" "Batch image IDs must be unique UUIDs.")
          | some ids => do
              let items ← eachImage .deleteImage deletedItem ids
              pure (.batch items)

structure BatchVisibilityRequest where
  imageIDs : List GoString
  visibility : Visibility

def batchVisibility (r : Credentials) (body : Option BatchVisibilityRequest) : Handler Answer :=
  guarded (requireSession P r true) fun _ =>
    match body with
    | none =>
        pure (writeError 400 "invalid_batch"
          "Batch visibility requires 1 to 100 image IDs and a valid visibility.")
    | some request =>
        if request.imageIDs = [] ∨ 100 < request.imageIDs.length ∨
            (request.visibility ≠ .isPublic ∧ request.visibility ≠ .isPrivate) then
          pure (writeError 400 "invalid_batch"
            "Batch visibility requires 1 to 100 image IDs and a valid visibility.")
        else
          match uniqueImageIDs P [] request.imageIDs with
          | none => pure (writeError 400 "invalid_batch" "Batch image IDs must be unique UUIDs.")
          | some ids => do
              let items ← eachImage (.changeVisibility · request.visibility) updatedItem ids
              pure (.batch items)

def changeVisibility (r : Credentials) (rawID : GoString) (body : Option Visibility) :
    Handler Answer :=
  guarded (requireSession P r true) fun _ =>
    if !P.isCanonicalUUID rawID then pure imageNotFound
    else
      match body with
      | none => pure (writeError 400 "invalid_request" "Invalid visibility request.")
      | some visibility => do
          match ← call (.changeVisibility rawID visibility) with
          | .service (.visibilityChanged (.ok true)) => pure .noContent
          | .service (.visibilityChanged (.ok false)) => pure imageNotFound
          | _ => pure (internalError "Unable to update image visibility.")

def convertError : Error → Answer
  | .imageNotFound => imageNotFound
  | .conversionNotSupported =>
      writeError 409 "conversion_not_supported"
        "only stored JPEG and PNG images can be converted to WebP"
  | .processingBusy =>
      .problem 503 "processing_busy" "Image processor is at capacity. Retry shortly." (some 1)
  | .processingUnavailable =>
      writeError 503 "processing_unavailable" "Image byte processing is unavailable in this build."
  | _ => internalError "Unable to convert image to WebP."

/-- The options that the handler leaves out are the zero values. -/
def conversionOptions (settings : Setup.Settings) : Processor.Options :=
  { compressionEnabled := false
    jpegQuality := 0
    webpQuality := 0
    pngCompressionLevel := 0
    conversionEnabled := true
    conversionWebPQuality := settings.preferences.conversionWebPQuality
    conversionWebPLossless := settings.preferences.conversionLossless }

def convertToWebP (r : Credentials) (imageID : GoString) : Handler Answer :=
  guarded (requireSession P r true) fun _ => do
    match ← front .getSettings with
    | none => pure (internalError "Unable to read image processing settings.")
    | some settings =>
        match ← call (.convertToWebP imageID (conversionOptions settings)) with
        | .service (.converted (.ok result)) => pure (.converted result)
        | .service (.converted (.error e)) => pure (convertError e)
        | _ => pure .unanswered

/-- An upload and an import behind their gate; the program behind answers for missing settings too. -/
def receive (operation : Uploads.MultipartRequest → Operation) (body : Uploads.MultipartRequest)
    (principal : Principal) : Handler Answer := do
  let settings ← front .getSettings
  let outcome ← (Program.perform (Ask.call (operation
    { body with
      principal := some (principal.apiToken.map ApiToken.Identity.tokenID)
      settings := settings })) : Handler Outcome)
  match outcome with
  | .multipart answer => pure (.multipart answer)
  | _ => pure .unanswered

def upload (r : Credentials) (body : Uploads.MultipartRequest) : Handler Answer :=
  guarded (requireScope P .post r .imagesUpload) (receive .upload body)

def createImport (r : Credentials) (body : Uploads.MultipartRequest) : Handler Answer :=
  guarded (requireScopes P .post r [.imagesUpload, .aliasesWrite]) (receive .createImport body)

end Images

section Settings

/-- `settings.Service.UpdateDefaultVisibility`: `none` is an invalid visibility. -/
def writeDefaultVisibility (visibility : Visibility) (now : Time) : Handler (Option Bool) :=
  if visibility ≠ .isPublic ∧ visibility ≠ .isPrivate then pure none
  else do
    let written ← front (.writeDefaultVisibility visibility now)
    pure (some written)

/-- `settings.Service.UpdateProcessing`: `none` is a value out of range. -/
def writeProcessing (value : ProcessingSettings) (now : Time) : Handler (Option Bool) :=
  if value.jpegQuality < 1 ∨ 100 < value.jpegQuality ∨ value.webpQuality < 1 ∨
      100 < value.webpQuality ∨ value.pngCompressionLevel < 0 ∨ 9 < value.pngCompressionLevel ∨
      value.conversionWebPQuality < 1 ∨ 100 < value.conversionWebPQuality then pure none
  else do
    let written ← front (.writeProcessing value now)
    pure (some written)

/-- The settings as they are after an update. -/
def readUpdated : Handler Answer := do
  match ← front .getSettings with
  | none => pure (internalError "Unable to read updated settings.")
  | some value => pure (.settings value)

def getSettings (r : Credentials) : Handler Answer :=
  guarded (requireSession P r false) fun _ => do
    match ← front .getSettings with
    | none => pure (internalError "Unable to read settings.")
    | some value => pure (.settings value)

def updateDefaultVisibility (r : Credentials) (body : Option Visibility) : Handler Answer :=
  guarded (requireSession P r true) fun _ =>
    match body with
    | none => pure (writeError 400 "invalid_request" "Invalid settings request.")
    | some visibility => do
        let now ← timeNow
        match ← writeDefaultVisibility visibility now with
        | none => pure (writeError 400 "invalid_visibility" "invalid default visibility")
        | some false => pure (internalError "Unable to update default visibility.")
        | some true => readUpdated

def updateProcessing (r : Credentials) (body : Option ProcessingSettings) : Handler Answer :=
  guarded (requireSession P r true) fun _ =>
    match body with
    | none => pure (writeError 400 "invalid_request" "Invalid image processing settings request.")
    | some value => do
        let now ← timeNow
        match ← writeProcessing value now with
        | none =>
            pure (writeError 400 "invalid_processing_settings" "invalid image processing settings")
        | some false => pure (internalError "Unable to update image processing settings.")
        | some true => readUpdated

end Settings

section Maintenance

def rebuild (r : Credentials) : Handler Answer :=
  guarded (requireSession P r true) fun _ => do
    let now ← timeNow
    match ← call (.rebuild now) with
    | .service (.rebuilt (.ok result)) => pure (.rebuilt result)
    | _ => pure (writeError 500 "rebuild_failed" "Unable to rebuild in-memory indexes.")

def inspect (r : Credentials) : Handler Answer :=
  guarded (requireSession P r true) fun _ => do
    let now ← timeNow
    match ← call (.inspect now) with
    | .service (.inspected (.ok result)) => pure (.inspected result)
    | _ => pure (writeError 500 "inspection_failed" "Unable to inspect data consistency.")

end Maintenance

section Exchanges

/-- A request for one of these handlers; `deliver` is a request for an image, which has its own checks,
and `internal` is what the process does without being asked. -/
inductive Exchange
  | login (r : Credentials) (address : GoString) (body : Option LoginRequest)
  | current (r : Credentials)
  | logout (r : Credentials)
  | changePassword (r : Credentials) (body : Option ChangePasswordRequest)
  | updateProfile (r : Credentials) (body : Option UpdateProfileRequest)
  | createToken (r : Credentials) (body : Option CreateTokenRequest)
  | revokeToken (r : Credentials) (tokenID : GoString)
  | createAlias (r : Credentials) (body : Option CreateAliasRequest)
  | deleteAlias (r : Credentials) (aliasID : GoString)
  | deleteImage (r : Credentials) (imageID : GoString)
  | batchDelete (r : Credentials) (body : Option (List GoString))
  | changeVisibility (r : Credentials) (rawID : GoString) (body : Option Visibility)
  | batchVisibility (r : Credentials) (body : Option BatchVisibilityRequest)
  | convertToWebP (r : Credentials) (imageID : GoString)
  | upload (r : Credentials) (body : Uploads.MultipartRequest)
  | createImport (r : Credentials) (body : Uploads.MultipartRequest)
  | getSettings (r : Credentials)
  | updateDefaultVisibility (r : Credentials) (body : Option Visibility)
  | updateProcessing (r : Credentials) (body : Option ProcessingSettings)
  | rebuild (r : Credentials)
  | inspect (r : Credentials)
  | deliver (r : ImageRequest)
  | internal (q : Request)

def Exchange.script : Exchange → Handler Answer
  | login r address body => Http.login P r address body
  | current r => Http.current P r
  | logout r => Http.logout P r
  | changePassword r body => Http.changePassword P r body
  | updateProfile r body => Http.updateProfile P r body
  | createToken r body => Http.createToken P r body
  | revokeToken r tokenID => Http.revokeToken P r tokenID
  | createAlias r body => Http.createAlias P r body
  | deleteAlias r aliasID => Http.deleteAlias P r aliasID
  | deleteImage r imageID => Http.deleteImage P r imageID
  | batchDelete r body => Http.batchDelete P r body
  | changeVisibility r rawID body => Http.changeVisibility P r rawID body
  | batchVisibility r body => Http.batchVisibility P r body
  | convertToWebP r imageID => Http.convertToWebP P r imageID
  | upload r body => Http.upload P r body
  | createImport r body => Http.createImport P r body
  | getSettings r => Http.getSettings P r
  | updateDefaultVisibility r body => Http.updateDefaultVisibility P r body
  | updateProcessing r body => Http.updateProcessing P r body
  | rebuild r => Http.rebuild P r
  | inspect r => Http.inspect P r
  | deliver r => do
      match ← call (.serve r) with
      | .service (.replied reply) => pure (.delivered reply)
      | _ => pure .unanswered
  | internal q => do
      let _ ← call q
      pure .unanswered

end Exchanges

end ImageSilo.Http
