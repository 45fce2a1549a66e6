import PushCache.Config
import PushCache.Percent.Core

/-!
# The URL library

What the service uses of the URL library beyond the components every `Url`
carries: the scheme, the credentials and the path, and the setters.  A setter that
fails leaves the URL as it is.  The contracts state the documented behaviour of
the setters of credentials, one call at a time.
-/

namespace PushCache

open PushCache.Percent

/-- The characters that are escaped in credentials, besides those that are not
ASCII. -/
def userinfo (char : Char) : Bool :=
  char.toNat < 0x20 || char.toNat = 0x7F ||
    (Char.ofNat 0x60 :: " \"#<>?\x7b\x7d/:;=@[\\]^|".toList).contains char

structure UrlCrate where
  scheme : Url → String
  username : Url → String
  password : Url → Option String
  path : Url → String
  /-- `set_path`. -/
  setPath : Url → String → Url
  /-- `set_username`. -/
  setUsername : Url → String → Option Url
  /-- `set_password(Some(..))`. -/
  setPassword : Url → String → Option Url

namespace UrlCrate

variable (crate : UrlCrate)

/-- A URL takes credentials when it has a host and is no `file` URL. -/
def TakesCredentials (url : Url) : Prop :=
  (url.hostStr.getD "" ≠ "") ∧ crate.scheme url ≠ "file"

instance (url : Url) : Decidable (crate.TakesCredentials url) :=
  inferInstanceAs (Decidable (_ ∧ _))

/-- The two URLs differ in nothing but credentials. -/
structure SameButCredentials (first second : Url) : Prop where
  scheme : crate.scheme first = crate.scheme second
  hostStr : first.hostStr = second.hostStr
  port : first.port = second.port
  path : crate.path first = crate.path second

/-- `set_password` on this URL with this text: it fails exactly when the URL takes no
credentials, and otherwise stores the encoded text; an empty password is none. -/
def SetsPassword (url : Url) (text : String) : Prop :=
  match crate.setPassword url text with
  | none => ¬crate.TakesCredentials url
  | some next =>
      crate.TakesCredentials url ∧ crate.SameButCredentials next url ∧
        crate.password next = if text = "" then none else some (encode userinfo text)

/-- `set_username` on this URL with this text. -/
def SetsUsername (url : Url) (text : String) : Prop :=
  match crate.setUsername url text with
  | none => ¬crate.TakesCredentials url
  | some next =>
      crate.TakesCredentials url ∧ crate.SameButCredentials next url ∧
        crate.username next = encode userinfo text ∧ crate.password next = crate.password url

/-- Both setters, in the order in which the service calls them. -/
def SetsCredentials (url : Url) (username password : String) : Prop :=
  crate.SetsPassword url password ∧
    ∀ next, crate.setPassword url password = some next → crate.SetsUsername next username

/-- `From<UrlWithUsernamePassword> for Url`; `none` is a panic of `unwrap`. -/
def intoUrl (value : UrlWithUsernamePassword) : Option Url :=
  let withPassword :=
    match value.password with
    | some password => crate.setPassword value.url password
    | none => some value.url
  withPassword.bind fun returnUrl =>
    match value.username with
    | some username => crate.setUsername returnUrl username
    | none => some returnUrl

variable {crate}

theorem SameButCredentials.takesCredentials_iff {first second : Url}
    (same : crate.SameButCredentials first second) :
    crate.TakesCredentials first ↔ crate.TakesCredentials second := by
  rw [TakesCredentials, TakesCredentials, same.scheme, same.hostStr]

/-- A URL that takes no credentials makes the conversion panic; otherwise both come back
encoded. -/
theorem intoUrl_of_setsCredentials {url : Url} {username password : String}
    (sets : crate.SetsCredentials url username password) :
    (crate.TakesCredentials url ∧ ∃ next,
      crate.intoUrl ⟨url, some username, some password⟩ = some next ∧
        crate.username next = encode userinfo username ∧
          (crate.password next).getD "" = encode userinfo password) ∨
    (¬crate.TakesCredentials url ∧
      crate.intoUrl ⟨url, some username, some password⟩ = none) := by
  rcases sets with ⟨setsPassword, setsUsername⟩
  simp only [intoUrl]
  cases withPassword : crate.setPassword url password with
  | none =>
      right
      simp only [SetsPassword, withPassword] at setsPassword
      exact ⟨setsPassword, rfl⟩
  | some middle =>
      left
      simp only [SetsPassword, withPassword] at setsPassword
      rcases setsPassword with ⟨takes, same, stored⟩
      have named := setsUsername middle withPassword
      rw [Option.bind_some]
      cases withUsername : crate.setUsername middle username with
      | none =>
          simp only [SetsUsername, withUsername] at named
          exact absurd (same.takesCredentials_iff.mpr takes) named
      | some next =>
          simp only [SetsUsername, withUsername] at named
          rcases named with ⟨_, _, encoded, kept⟩
          refine ⟨takes, next, rfl, encoded, ?_⟩
          rw [kept, stored]
          split
          · next empty => rw [empty, encode_empty, Option.getD_none]
          · exact Option.getD_some

end UrlCrate

end PushCache

namespace PushCache.Sample

open PushCache.Percent

/-- The authority of a serialized URL and what follows. -/
def afterScheme (url : Url) : List Char :=
  (url.asStr.toList.dropWhile (· ≠ ':')).drop 3

/-- The credentials of a serialized URL, and the rest from the host on. -/
def splitUserinfo (url : Url) : List Char × List Char :=
  if '@' ∈ (afterScheme url).takeWhile (· ≠ '/') then
    ((afterScheme url).takeWhile (· ≠ '@'), ((afterScheme url).dropWhile (· ≠ '@')).drop 1)
  else
    ([], afterScheme url)

def schemeOf (url : Url) : String :=
  String.ofList (url.asStr.toList.takeWhile (· ≠ ':'))

def usernameOf (url : Url) : String :=
  String.ofList ((splitUserinfo url).1.takeWhile (· ≠ ':'))

def passwordOf (url : Url) : Option String :=
  if ':' ∈ (splitUserinfo url).1 then
    some (String.ofList (((splitUserinfo url).1.dropWhile (· ≠ ':')).drop 1))
  else
    none

def pathOf (url : Url) : String :=
  String.ofList ((splitUserinfo url).2.dropWhile (· ≠ '/'))

/-- The URL with other credentials. -/
def withUserinfo (url : Url) (username : String) (password : Option String) : Url :=
  let userinfo := username ++ password.elim "" (":" ++ ·)
  { url with
    asStr := schemeOf url ++ "://" ++ (if userinfo = "" then "" else userinfo ++ "@") ++
      String.ofList (splitUserinfo url).2 }

/-- A URL library for URLs without query and fragment. -/
def urlCrate : UrlCrate where
  scheme := schemeOf
  username := usernameOf
  password := passwordOf
  path := pathOf
  setPath := fun url path =>
    { url with
      asStr := String.ofList ((url.asStr.toList.take
        (url.asStr.toList.length - (pathOf url).toList.length))) ++ path }
  setUsername := fun url username =>
    if url.hostStr.getD "" ≠ "" ∧ schemeOf url ≠ "file" then
      some (withUserinfo url (encode userinfo username) (passwordOf url))
    else none
  setPassword := fun url password =>
    if url.hostStr.getD "" ≠ "" ∧ schemeOf url ≠ "file" then
      some (withUserinfo url (usernameOf url)
        (if password = "" then none else some (encode userinfo password)))
    else none

end PushCache.Sample
