import ImageSilo.Auth.Service
import ImageSilo.HttpApi.Delivery
import ImageSilo.Importer.Service

/-! The operations of the image, alias, account, import and maintenance services with their arguments, and
the programs they start. -/
namespace ImageSilo

open Go Concurrent

inductive Request
  | upload (reader : Reader) (originalName : GoString) (options : UploadOptions) (now : Time)
  | importImage (reader : Reader) (originalName aliasPath : GoString) (options : ImportOptions)
      (now : Time)
  | createAlias (path imageID source : GoString) (now : Time)
  | deleteAlias (id : GoString)
  | deleteImage (id : GoString)
  | changeVisibility (id : GoString) (visibility : Visibility)
  | convertToWebP (id : GoString) (options : Processor.Options)
  | rebuild (now : Time)
  | inspect (now : Time)
  | daily (safetyAge : Int)
  | serve (r : ImageRequest)
  | login (email password : GoString) (now : Time)
  | logout (token : GoString)
  | updateProfile (identity : Auth.SessionIdentity) (displayName email : GoString) (now : Time)
  | changePassword (identity : Auth.SessionIdentity)
      (sessionToken currentPassword newPassword : GoString) (now : Time)
  | cleanupSessions (now : Time)
  | loadSessions (now : Time)
  | createToken (name : GoString) (scopes : List (Option ApiToken.Scope))
      (expiresAt : Option Time) (now : Time)
  | revokeToken (id : GoString)
  | cleanupTokens (now : Time)
  | loadTokens (now : Time)
  | authenticateSession (token : GoString) (now : Time)
  | authenticateToken (plaintext : GoString) (now : Time)

inductive Result
  | uploaded (r : Except Error Image)
  | imported (r : Except Error ImportResult)
  | aliasCreated (r : Except Error Alias)
  | aliasDeleted (r : Except Error Unit)
  | imageDeleted (r : Except Error DeleteResult)
  | visibilityChanged (r : Except Error Bool)
  | converted (r : Except Error ConversionResult)
  | rebuilt (r : Except Delivery.LoadError RebuildResult)
  | inspected (r : Except Error InspectionResult)
  | maintained (r : Except Error DailyResult)
  | replied (r : Reply)
  | loggedIn (r : Except Error LoggedIn)
  | loggedOut (r : Except Error Unit)
  | profileUpdated (r : Except Error Auth.SessionIdentity)
  | passwordChanged (r : Except Error Unit)
  | sessionsCleaned (r : Except Error Int)
  | sessionsLoaded (r : Except Error Unit)
  | tokenCreated (r : Except Error (ApiToken.Token × GoString))
  | tokenRevoked (r : Except Error Unit)
  | tokensCleaned
  | tokensLoaded (r : Except Error Unit)
  | sessionAuthenticated (r : Option Auth.SessionIdentity)
  | tokenAuthenticated (r : Option ApiToken.Identity)
  | aborted

def returning {α : Type} (p : Call α) (f : α → Result) : Call Result := do
  let value ← p
  pure (f value)

variable (P : Platform)

def Request.program : Request → Call Result
  | upload reader originalName options now =>
      returning (ImageSilo.upload P reader originalName options now) .uploaded
  | importImage reader originalName aliasPath options now =>
      returning (ImageSilo.importImage P reader originalName aliasPath options now) .imported
  | createAlias path imageID source now =>
      returning (ImageSilo.createAlias P path imageID source now) .aliasCreated
  | deleteAlias id => returning (ImageSilo.deleteAlias P id) .aliasDeleted
  | deleteImage id => returning (ImageSilo.deleteImage P id) .imageDeleted
  | changeVisibility id visibility =>
      returning (ImageSilo.changeVisibility id visibility) .visibilityChanged
  | convertToWebP id options => returning (ImageSilo.convertToWebP P id options) .converted
  | rebuild now => returning (ImageSilo.rebuild P now) .rebuilt
  | inspect now => returning (ImageSilo.inspect now) .inspected
  | daily safetyAge => returning (ImageSilo.daily safetyAge) .maintained
  | serve r => returning (ImageSilo.serve P r) .replied
  | login email password now => returning (ImageSilo.login P email password now) .loggedIn
  | logout token => returning (ImageSilo.logout P token) .loggedOut
  | updateProfile identity displayName email now =>
      returning (ImageSilo.updateProfile P identity displayName email now) .profileUpdated
  | changePassword identity sessionToken currentPassword newPassword now =>
      returning
        (ImageSilo.changePassword P identity sessionToken currentPassword newPassword now)
        .passwordChanged
  | cleanupSessions now => returning (ImageSilo.cleanupSessions now) .sessionsCleaned
  | loadSessions now => returning (ImageSilo.loadSessions now) .sessionsLoaded
  | createToken name scopes expiresAt now =>
      returning (ImageSilo.createToken P name scopes expiresAt now) .tokenCreated
  | revokeToken id => returning (ImageSilo.revokeToken id) .tokenRevoked
  | cleanupTokens now => returning (ImageSilo.cleanupTokens now) fun _ => .tokensCleaned
  | loadTokens now => returning (ImageSilo.loadTokens now) .tokensLoaded
  | authenticateSession token now =>
      returning (ImageSilo.authenticateSession P token now) .sessionAuthenticated
  | authenticateToken plaintext now =>
      returning (ImageSilo.authenticateToken P plaintext now) .tokenAuthenticated

/-- Every caller about to make its request. -/
def start (requests : Nat → Request) (σ : State) : World (machine P) Result :=
  ⟨σ, fun i => (requests i).program P⟩

end ImageSilo
