import Crown.Backend

/-! The RPC handlers of `server/server.cpp`. A handler is a program over the requests
it makes; it ends with the status it returns or, when that is OK, with the response. -/
namespace Crown

open Lib

/-- The fields of `social.User` the server fills. -/
structure User where
  id : Text
  username : Text
  handle : Text
  displayName : Text
  avatar : Text
  bio : Text
  followersCount : UInt32
  followingCount : UInt32
  postsCount : UInt32
  createdAt : Text
  deriving DecidableEq, Inhabited

structure Post where
  id : Text
  author : Option User
  title : Text
  content : Text
  imageUrl : Text
  likesCount : UInt32
  commentsCount : UInt32
  isLikedByMe : Bool
  createdAt : Text
  deriving DecidableEq, Inhabited

structure LoginResult where
  idToken : Text
  refreshToken : Text
  expiresIn : UInt32
  user : Option User
  deriving DecidableEq, Inhabited

structure ToggleLikeResult where
  isLiked : Bool
  updatedLikesCount : UInt32
  deriving DecidableEq, Inhabited

inductive Request where
  | createPost (title content imageUrl : Text)
  | getPost (postId : Text)
  | deletePost (postId : Text)
  | listFeed (page limit : UInt32)
  | listUserPosts (userId : Text) (page limit : UInt32)
  | getUserById (userId : Text)
  | getUserByHandle (handle : Text)
  | toggleLike (postId : Text)
  | login (authorizationCode redirectUri : Text)
  | refreshAccessToken (refreshToken : Text)

def Request.method : Request → Text
  | .createPost .. => lit "/social.PostService/CreatePost"
  | .getPost _ => lit "/social.PostService/GetPost"
  | .deletePost _ => lit "/social.PostService/DeletePost"
  | .listFeed .. => lit "/social.PostService/ListFeed"
  | .listUserPosts .. => lit "/social.PostService/ListUserPosts"
  | .getUserById _ => lit "/social.UserService/GetUserById"
  | .getUserByHandle _ => lit "/social.UserService/GetUserByHandle"
  | .toggleLike _ => lit "/social.InteractionService/ToggleLike"
  | .login .. => lit "/social.AuthService/Login"
  | .refreshAccessToken _ => lit "/social.AuthService/RefreshAccessToken"

inductive Response where
  | post (post : Post)
  | postList (posts : List Post)
  | user (user : User)
  | toggleLike (result : ToggleLikeResult)
  | login (result : LoginResult)
  | empty
  deriving DecidableEq

def maxContentChars : Nat := 5000
def maxTitleChars : Nat := 256
def maxImageChars : Nat := 2048
def idAccessTokenExpiresSeconds : UInt32 := 3600
def idRefreshTokenExpiresSeconds : UInt32 := 604800

def postSelect : Text :=
  lit "*,author:users!author_id(id,username,handle,display_name,avatar,bio," ++
  lit "followers_count,following_count,posts_count,created_at)"

def sanitizeHandle (name : Text) : Text :=
  (Text.lower name).map fun c => if c = ' ' then '_' else c

/-- The fields of a user row behind its id. -/
def readUser (id : Text) (row : Json) : Except Exception User := do
  let username ← row.jsonOr Json.getString (lit "username") []
  let handle ← row.jsonOr Json.getString (lit "handle") []
  let displayName ← row.jsonOr Json.getString (lit "display_name") []
  let avatar ← row.jsonOr Json.getString (lit "avatar") []
  let bio ← row.jsonOr Json.getString (lit "bio") []
  let followersCount ← row.jsonOr Json.getUInt32 (lit "followers_count") 0
  let followingCount ← row.jsonOr Json.getUInt32 (lit "following_count") 0
  let postsCount ← row.jsonOr Json.getUInt32 (lit "posts_count") 0
  let createdAt ← row.jsonOr Json.getString (lit "created_at") []
  return ⟨id, username, handle, displayName, avatar, bio, followersCount, followingCount,
    postsCount, createdAt⟩

/-- The embedded author: the first element where an array was embedded. -/
def readAuthor (author : Json) : Except Exception User := do
  let a := match author with
    | .array (first :: _) => first
    | other => other
  let id ← a.jsonOr Json.getString (lit "id") []
  readUser id a

/-- Nothing for a row without an id. -/
def parsePost (row : Json) : Except Exception (Option Post) :=
  match row.present (lit "id") with
  | none => return none
  | some stored => do
    let id ← stored.getString
    let title ← row.jsonOr Json.getString (lit "title") []
    let content ← row.jsonOr Json.getString (lit "content") []
    let imageUrl ← row.jsonOr Json.getString (lit "image_url") []
    let likesCount ← row.jsonOr Json.getUInt32 (lit "likes_count") 0
    let commentsCount ← row.jsonOr Json.getUInt32 (lit "comments_count") 0
    let createdAt ← row.jsonOr Json.getString (lit "created_at") []
    let isLikedByMe ← row.jsonOr Json.getBool (lit "is_liked_by_me") false
    let author ← match row.present (lit "author") with
      | none => .ok none
      | some stored => (readAuthor stored).map some
    return some ⟨id, author, title, content, imageUrl, likesCount, commentsCount, isLikedByMe,
      createdAt⟩

def parseUser (row : Json) : Except Exception (Option User) :=
  match row.present (lit "id") with
  | none => return none
  | some stored => do
    let id ← stored.getString
    let user ← readUser id row
    return some user

/-- The rows of a list answer: one post a row, an empty one where the row has no id. -/
def parsePosts : List Json → Except Exception (List Post)
  | [] => return []
  | row :: rest => do
    let post ← parsePost row
    let posts ← parsePosts rest
    return post.getD default :: posts

/-- The elements of a reply that is an array. -/
def rows? : Option Json → Option (List Json)
  | some (.array rows) => some rows
  | _ => none

/-- The first element of a reply that is an array and not empty. -/
def firstRow? (reply : Option Json) : Option Json := (rows? reply).bind List.head?

abbrev Handler (α : Type) : Type := Program Op Op.Reply Exception α

/-! The requests under the names the source calls them by. -/

abbrev getUser : Handler (Option AuthenticatedUser) := Program.call Op.getUser
abbrev cacheGetJson (key : Text) : Handler Json := Program.call (Op.cacheGet key)
abbrev cacheSetJson (key : Text) (value : Json) (ttlSeconds : Nat) : Handler Unit :=
  Program.call (Op.cacheSet key value ttlSeconds)
abbrev invalidatePost (id : Text) : Handler Unit := Program.call (Op.cacheDel (Cache.postKey id))
abbrev invalidateUser (id : Text) : Handler Unit := Program.call (Op.cacheDel (Cache.userKey id))
abbrev invalidateFeed : Handler Unit := Program.call (Op.cacheDelPattern Cache.feedPattern)
abbrev invalidateUserPosts (userId : Text) : Handler Unit :=
  Program.call (Op.cacheDelPattern (Cache.userPostsPattern userId))
abbrev invalidateLike (userId postId : Text) : Handler Unit :=
  Program.call (Op.cacheDel (Cache.likeKey userId postId))
abbrev invalidatePostCount (userId : Text) : Handler Unit :=
  Program.call (Op.cacheDel (Cache.postCountKey userId))
abbrev QueryBuilder.execute (query : QueryBuilder) : Handler (Option Json) :=
  Program.call (Op.select query)
abbrev QueryBuilder.count (query : QueryBuilder) : Handler Int := Program.call (Op.count query)
abbrev QueryBuilder.updateExecute (query : QueryBuilder) (row : Json) : Handler Int :=
  Program.call (Op.update query row)
abbrev QueryBuilder.deleteExecute (query : QueryBuilder) : Handler Int :=
  Program.call (Op.delete query)
abbrev insert (table : Text) (row : Json) : Handler Int := Program.call (Op.insert table row)
abbrev insertReturn (table : Text) (row : Json) : Handler (Option Json) :=
  Program.call (Op.insertReturn table row)
abbrev rpc (function : StoredFunction) (params : Json) : Handler (Option Json) :=
  Program.call (Op.rpc function params)
abbrev s3DeleteAsync (bucket objectKey : Text) : Handler Unit :=
  Program.call (Op.s3Delete bucket objectKey)
abbrev postToken (body : Json) : Handler (Option HttpReply) := Program.call (Op.postToken body)
abbrev generateRandomHex (len : Nat) : Handler Text := Program.call (Op.randomHex len)
abbrev generateSecId : Handler Text := Program.call Op.secId

/-- The columns of a known user that a login overwrites. -/
def profileUpdate (u : AuthenticatedUser) : List (Text × Json) :=
  (if u.name ≠ [] then
    [(lit "username", .string u.name), (lit "display_name", .string u.name),
      (lit "handle", .string (sanitizeHandle u.name))] else []) ++
  (if u.picture ≠ [] then [(lit "avatar", .string u.picture)] else [])

def upsertUser (u : AuthenticatedUser) : Handler Unit :=
  if u.id = [] then return ()
  else do
    let check ← ((((fromTable (lit "users")).select (lit "id")).eq .id u.id).limit 1).execute
    match firstRow? check with
    | some _ =>
      if profileUpdate u ≠ [] then
        let _ ← ((fromTable (lit "users")).eq .id u.id).updateExecute (.object (profileUpdate u))
        return ()
      else return ()
    | none =>
      let handle := sanitizeHandle u.name
      let taken ← ((((fromTable (lit "users")).select (lit "id")).eq .handle handle).limit 1).execute
      let handle ← match firstRow? taken with
        | some _ => do
          let suffix ← generateRandomHex 4
          pure (handle ++ lit "_" ++ suffix)
        | none => pure handle
      let _ ← insert (lit "users") (.object [(lit "id", .string u.id),
        (lit "username", .string u.name), (lit "handle", .string handle),
        (lit "display_name", .string u.name), (lit "avatar", .string u.picture)])
      return ()

/-- `get_int` of an entry that holds a number. The counts stored are integers. -/
def cachedInt : Json → Int
  | .integer n => if -2 ^ 31 ≤ n ∧ n < 2 ^ 31 then n else 0
  | _ => 0

def countUserPosts (userId : Text) : Handler Int := do
  let cached ← cacheGetJson (Cache.postCountKey userId)
  if cached.isNumber then
    let value ← cacheGetJson (Cache.postCountKey userId)
    return cachedInt value
  else
    let total ← ((fromTable (lit "posts")).eq .authorId userId).count
    let count := if 0 ≤ total then toInt32 total else 0
    cacheSetJson (Cache.postCountKey userId) (.integer count) cacheTtlPostCount
    return count

def notAuthenticated : Status := ⟨.unauthenticated, lit "Not authenticated"⟩

/-- The checks of `CreatePost`, in their order. -/
def checkPost (title content imageUrl : Text) : Option Status :=
  if title = [] then some ⟨.invalidArgument, lit "Title cannot be empty"⟩
  else if title.length > maxTitleChars then
    some ⟨.invalidArgument, lit "Title exceeds maximum length of 256 characters"⟩
  else if content = [] then some ⟨.invalidArgument, lit "Content cannot be empty"⟩
  else if content.length > maxContentChars then
    some ⟨.invalidArgument, lit "Content exceeds maximum length of 5000 characters"⟩
  else if (sanitizeUrl imageUrl).length > maxImageChars then
    some ⟨.invalidArgument, lit "Image URL exceeds maximum length of 2048 characters"⟩
  else none

/-- The id in the row an insertion returned, empty without such a row. -/
def createdId : Option Json → Except Exception Text
  | some (.object members) => (Json.object members).jsonOr Json.getString (lit "id") []
  | _ => .ok []

def firstPost (reply : Option Json) : Except Exception (Option Post) :=
  match firstRow? reply with
  | some first => parsePost first
  | none => .ok none

namespace CrownServer

def createPost (app : AppContext) (title content imageUrl : Text) :
    Handler (Except Status Response) := do
  let user ← getUser
  match user with
  | none => return .error notAuthenticated
  | some user =>
    match checkPost title content imageUrl with
    | some status => return .error status
    | none =>
      upsertUser user
      let idSec ← generateSecId
      let created ← insertReturn (lit "posts") (.object [(lit "id", .string idSec),
        (lit "author_id", .string user.id),
        (lit "title", .string (sanitizeString app.html title)),
        (lit "content", .string (sanitizeString app.html content)),
        (lit "image_url", .string (sanitizeUrl imageUrl))])
      let postId ← createdId created
      if postId = [] then
        return .error ⟨.internal,
          lit "Nao foi possivel obter o ID do post criado, então " ++
          lit "não foi postado o post. Mas não foi falha sua, e " ++
          lit "sim dos nossos servidores :( "⟩
      else
        let result ← ((((fromTable (lit "posts")).select postSelect).eq .id postId).limit 1).execute
        let post ← firstPost result
        invalidateFeed
        invalidatePostCount user.id
        return .ok (.post (post.getD default))

def getPost (postId : Text) : Handler (Except Status Response) := do
  let cached ← cacheGetJson (Cache.postKey postId)
  if cached.isObject then
    let post ← parsePost cached
    return .ok (.post (post.getD default))
  else
    let user ← getUser
    let userId := match user with
      | some user => user.id
      | none => []
    let result ← rpc .getPost (.object [(lit "p_user_id", .string userId),
      (lit "p_post_id", .string postId)])
    match result with
    | some parsed =>
      if (parsed.present (lit "id")).isSome then
        let post ← parsePost parsed
        cacheSetJson (Cache.postKey postId) parsed cacheTtlPost
        return .ok (.post (post.getD default))
      else return .error ⟨.notFound, lit "Post nao encontrado"⟩
    | none => return .error ⟨.notFound, lit "Post nao encontrado"⟩

/-- The lookup of the object behind an image URL. -/
def mediaLookup (imageUrl : Text) : QueryBuilder :=
  (((fromTable (lit "midia_hashes")).select (lit "file_id")).eq .url imageUrl).limit 1

/-- The deletion of the row of a post, its media and its cache entries, once the
caller is known to be the author. -/
def removePost (app : AppContext) (postId authorId imageUrl : Text) :
    Handler (Except Status Response) := do
  let delStatus ← ((fromTable (lit "posts")).eq .id postId).deleteExecute
  if delStatus < 200 ∨ 300 ≤ delStatus then
    return .error ⟨.internal, lit "Falha ao remover post"⟩
  else
    if imageUrl ≠ [] then
      let hashes ← (mediaLookup imageUrl).execute
      match firstRow? hashes with
      | some first =>
        let fileId ← first.jsonOr Json.getString (lit "file_id") []
        let _ ← ((fromTable (lit "midia_hashes")).eq .url imageUrl).deleteExecute
        if fileId ≠ [] then s3DeleteAsync app.cdnBucket fileId
      | none => pure ()
    invalidatePost postId
    invalidateFeed
    invalidateUserPosts authorId
    return .ok .empty

def deletePost (app : AppContext) (postId : Text) : Handler (Except Status Response) := do
  let user ← getUser
  match user with
  | none => return .error notAuthenticated
  | some user =>
    if postId = [] then return .error ⟨.invalidArgument, lit "Post ID is required"⟩
    else
      let result ← (postLookup postId).execute
      match firstRow? result with
      | some first =>
        let authorId ← first.jsonOr Json.getString (lit "author_id") []
        if authorId ≠ user.id then
          return .error ⟨.permissionDenied, lit "Not authorized to delete this post"⟩
        else
          let imageUrl ← first.jsonOr Json.getString (lit "image_url") []
          removePost app postId authorId imageUrl
      | none => return .error ⟨.notFound, lit "Post nao encontrado"⟩

/-- The offset sent for a page: the product of the unsigned numbers, read as an `int`. -/
def pageOffset (page limit : UInt32) : Int := toInt32 ((page - 1) * limit).toNat

def pageOrFirst (page : UInt32) : UInt32 := if page > 0 then page else 1

def limitOrDefault (limit : UInt32) : UInt32 := if limit > 0 then limit else 20

/-- The part `ListFeed` and `ListUserPosts` share, once page and limit are known:
an array in the cache, or else the rows of the stored function. -/
def listPosts (cacheKey : Text) (function : StoredFunction) (params : Json) :
    Handler (Except Status Response) := do
  let cached ← cacheGetJson cacheKey
  match rows? cached with
  | some rows =>
    let posts ← parsePosts rows
    return .ok (.postList posts)
  | none =>
    let result ← rpc function params
    match rows? result with
    | some rows =>
      let posts ← parsePosts rows
      cacheSetJson cacheKey (.array rows) cacheTtlFeed
      return .ok (.postList posts)
    | none => return .ok (.postList [])

def feedPageKey (page limit : UInt32) : Text :=
  Cache.feedKey (toInt32 (pageOrFirst page).toNat) (toInt32 (limitOrDefault limit).toNat)

def feedParams (viewer : Text) (page limit : UInt32) : Json :=
  .object [(lit "p_user_id", .string viewer),
    (lit "p_limit", .integer (toInt32 (limitOrDefault limit).toNat)),
    (lit "p_offset", .integer (pageOffset (pageOrFirst page) (limitOrDefault limit)))]

def listFeed (page limit : UInt32) : Handler (Except Status Response) := do
  let user ← getUser
  match user with
  | none => return .error notAuthenticated
  | some user => listPosts (feedPageKey page limit) .getFeed (feedParams user.id page limit)

def userPostsPageKey (userId : Text) (page limit : UInt32) : Text :=
  Cache.userPostsKey userId (toInt32 (pageOrFirst page).toNat)
    (toInt32 (limitOrDefault limit).toNat)

def userPostsParams (viewer userId : Text) (page limit : UInt32) : Json :=
  .object [(lit "p_user_id", .string viewer), (lit "p_author_id", .string userId),
    (lit "p_limit", .integer (toInt32 (limitOrDefault limit).toNat)),
    (lit "p_offset", .integer (pageOffset (pageOrFirst page) (limitOrDefault limit)))]

def listUserPosts (userId : Text) (page limit : UInt32) : Handler (Except Status Response) := do
  let user ← getUser
  match user with
  | none => return .error notAuthenticated
  | some user =>
    listPosts (userPostsPageKey userId page limit) .getUserPosts
      (userPostsParams user.id userId page limit)

/-- The part `GetUserById` and `GetUserByHandle` share: an object in the cache, or else
the first row of the lookup. -/
def lookupUser (cacheKey : Text) (query : QueryBuilder) (missing : Status) :
    Handler (Except Status Response) := do
  let cached ← cacheGetJson cacheKey
  if cached.isObject then
    let user ← parseUser cached
    return .ok (.user (user.getD default))
  else
    let result ← query.execute
    match firstRow? result with
    | some first =>
      let user ← parseUser first
      cacheSetJson cacheKey first cacheTtlUser
      return .ok (.user (user.getD default))
    | none => return .error missing

/-- The lookup of a user by one column. -/
def userLookup (column : Column) (value : Text) : QueryBuilder :=
  (((fromTable (lit "users")).select (lit "*")).eq column value).limit 1

def getUserById (userId : Text) : Handler (Except Status Response) :=
  if userId = [] then return .error ⟨.invalidArgument, lit "User ID is required"⟩
  else lookupUser (Cache.userKey userId) (userLookup .id userId)
    ⟨.notFound, lit "User not found"⟩

/-- The handle without an at sign in front. -/
def bareHandle (handle : Text) : Text :=
  match handle with
  | '@' :: rest => rest
  | other => other

def getUserByHandle (handle : Text) : Handler (Except Status Response) :=
  if handle = [] then return .error ⟨.invalidArgument, lit "Handle is required"⟩
  else lookupUser (Cache.handleKey (bareHandle handle)) (userLookup .handle (bareHandle handle))
    ⟨.notFound, lit "User not found for this handle"⟩

def toggleLike (postId : Text) : Handler (Except Status Response) := do
  let user ← getUser
  match user with
  | none => return .error notAuthenticated
  | some user =>
    if postId = [] then return .error ⟨.invalidArgument, lit "Post ID is required"⟩
    else
      let result ← rpc .toggleLike (.object [(lit "p_user_id", .string user.id),
        (lit "p_post_id", .string postId)])
      match result with
      | some (.object members) =>
        let isLiked ← (Json.object members).jsonOr Json.getBool (lit "is_liked") false
        let likesCount ← (Json.object members).jsonOr Json.getInt (lit "likes_count") 0
        invalidatePost postId
        invalidateLike user.id postId
        invalidateFeed
        return .ok (.toggleLike ⟨isLiked, toUInt32 likesCount⟩)
      | _ => return .error ⟨.internal, lit "Toggle like failed"⟩

/-- The token endpoint's answer, up to what the two exchanges take from it. -/
def tokenReply (lib : Libraries) (failure : Text) (read : Json → Except Exception (Except Status α)) :
    Option HttpReply → Except Exception (Except Status α)
  | none => return .error ⟨.unavailable, lit "Failed to connect to Google"⟩
  | some reply =>
    if reply.status ≠ 200 then do
      let erro := match lib.parse reply.body with
        | .ok erro => erro
        | .error _ => .null
      let message ← erro.value Json.getString (lit "error_description") failure
      return .error ⟨.unauthenticated, message⟩
    else
      match lib.parse reply.body with
      | .error (.parseError _) => return .error ⟨.internal, lit "Invalid token response"⟩
      | .error e => .error e
      | .ok dados => read dados

def noIdToken : Status := ⟨.internal, lit "No id_token in response"⟩

def notConfigured : Status := ⟨.internal, lit "OAuth not configured"⟩

/-- `ExchangeCodeForToken`: the id token and the refresh token. -/
def exchangeCodeForToken (app : AppContext) (authorizationCode redirectUri : Text) :
    Handler (Except Status (Text × Text)) := do
  match app.googleClientId, app.googleClientSecret with
  | some clientId, some clientSecret =>
    let reply ← postToken (.object [(lit "code", .string authorizationCode),
      (lit "client_id", .string clientId), (lit "client_secret", .string clientSecret),
      (lit "redirect_uri", .string redirectUri),
      (lit "grant_type", .string (lit "authorization_code"))])
    tokenReply app.lib (lit "Failed to exchange authorization code") (fun dados => do
      let _ ← dados.valueString (lit "access_token")
      let refreshToken ← dados.valueString (lit "refresh_token")
      let idToken ← dados.valueString (lit "id_token")
      if idToken = [] then return .error noIdToken else return .ok (idToken, refreshToken)) reply
  | _, _ => return .error notConfigured

/-- `AuthMiddleware::RefreshAccessToken`. -/
def exchangeRefreshToken (app : AppContext) (refreshToken : Text) :
    Handler (Except Status Text) := do
  match app.googleClientId, app.googleClientSecret with
  | some clientId, some clientSecret =>
    let reply ← postToken (.object [(lit "client_id", .string clientId),
      (lit "client_secret", .string clientSecret), (lit "refresh_token", .string refreshToken),
      (lit "grant_type", .string (lit "refresh_token"))])
    tokenReply app.lib (lit "Failed to refresh access token") (fun dados => do
      let idToken ← dados.valueString (lit "id_token")
      if idToken = [] then return .error noIdToken else return .ok idToken) reply
  | _, _ => return .error notConfigured

def login (app : AppContext) (authorizationCode redirectUri : Text) :
    Handler (Except Status Response) := do
  if authorizationCode = [] then
    return .error ⟨.invalidArgument, lit "Authorization code is required"⟩
  else if redirectUri = [] then
    return .error ⟨.invalidArgument, lit "Redirect URI is required"⟩
  else
    let exchanged ← exchangeCodeForToken app authorizationCode redirectUri
    match exchanged with
    | .error status => return .error status
    | .ok (idToken, refreshToken) =>
      let validated ← Program.call (Op.validateIdToken idToken)
      let user ← (validated : Except Exception (Option AuthenticatedUser))
      match user with
      | none => return .error ⟨.unauthenticated, lit "Invalid or expired token"⟩
      | some user =>
        upsertUser user
        let postsCount ← countUserPosts user.id
        invalidateUser user.id
        return .ok (.login ⟨idToken, refreshToken, idAccessTokenExpiresSeconds,
          some { (default : User) with
            id := user.id, username := user.name, displayName := user.name, avatar := user.picture
            postsCount := toUInt32 postsCount }⟩)

def refreshAccessToken (app : AppContext) (refreshToken : Text) :
    Handler (Except Status Response) := do
  if refreshToken = [] then
    return .error ⟨.invalidArgument, lit "Refresh token is required"⟩
  else
    let exchanged ← exchangeRefreshToken app refreshToken
    match exchanged with
    | .error status => return .error status
    | .ok idToken =>
      return .ok (.login ⟨idToken, [], idRefreshTokenExpiresSeconds, none⟩)

/-- The body of a handler, inside its `try`. -/
def body (app : AppContext) : Request → Handler (Except Status Response)
  | .createPost title content imageUrl => createPost app title content imageUrl
  | .getPost postId => getPost postId
  | .deletePost postId => deletePost app postId
  | .listFeed page limit => listFeed page limit
  | .listUserPosts userId page limit => listUserPosts userId page limit
  | .getUserById userId => getUserById userId
  | .getUserByHandle handle => getUserByHandle handle
  | .toggleLike postId => toggleLike postId
  | .login authorizationCode redirectUri => login app authorizationCode redirectUri
  | .refreshAccessToken refreshToken => refreshAccessToken app refreshToken

/-- Every handler turns an exception into the status `INTERNAL` with its text. -/
def handle (app : AppContext) (request : Request) : Handler (Except Status Response) :=
  (body app request).recover fun e => .error ⟨.internal, e.what⟩

end CrownServer
end Crown
