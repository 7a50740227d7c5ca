import Crown.Lib.Protobuf

/-! The messages of `proto/social.ts`: their fields, and how they are written and read. The code
that is generated for them does the same for each of its fields in turn, and calls a writer and a
reader that are not part of it. -/
namespace Crown.Social

open Lib Lib.Wire

/-- What the messages are written and read with: tags, lengths and the scalar types they use. -/
structure BinaryRuntime (ε : Type) extends Runtime ε where
  string : Scalar ε JsString []
  bool : Scalar ε Bool false

namespace BinaryRuntime

variable {ε : Type} (rt : BinaryRuntime ε)

def stringField : FieldType ε JsString := .scalar rt.string

def uint32Field : FieldType ε Nat := .scalar rt.uint32

def boolField : FieldType ε Bool := .scalar rt.bool

def messageField (T : MessageType ε M) : FieldType ε (Option M) := .message rt.toRuntime T

def repeatedField (T : MessageType ε M) : FieldType ε (List M) := .repeated rt.toRuntime T

end BinaryRuntime

/-- The values of the fields in their order, and what is kept beside them. -/
abbrev View (M R : Type) := M ≃ R × List Entry

variable {ε : Type}

structure User where
  id : JsString
  username : JsString
  handle : JsString
  displayName : JsString
  avatar : JsString
  bio : JsString
  followersCount : Nat
  followingCount : Nat
  postsCount : Nat
  createdAt : JsString
  isFollowingMe : Bool
  isFollowedByMe : Bool
  unknown : List Entry

def User.view : View User
    (JsString × JsString × JsString × JsString × JsString × JsString × Nat × Nat × Nat × JsString ×
      Bool × Bool × Unit) where
  toFun m := ((m.id, m.username, m.handle, m.displayName, m.avatar, m.bio, m.followersCount,
    m.followingCount, m.postsCount, m.createdAt, m.isFollowingMe, m.isFollowedByMe, ()), m.unknown)
  invFun := fun ((id, username, handle, displayName, avatar, bio, followersCount, followingCount,
      postsCount, createdAt, isFollowingMe, isFollowedByMe, ()), unknown) =>
    { id, username, handle, displayName, avatar, bio, followersCount, followingCount, postsCount,
      createdAt, isFollowingMe, isFollowedByMe, unknown }
  left_inv _ := rfl
  right_inv _ := rfl

def User.messageType (rt : BinaryRuntime ε) : MessageType ε User :=
  .ofFields rt.toRuntime (.cons 1 rt.stringField <| .cons 2 rt.stringField <|
    .cons 3 rt.stringField <| .cons 4 rt.stringField <| .cons 5 rt.stringField <|
    .cons 6 rt.stringField <| .cons 7 rt.uint32Field <| .cons 8 rt.uint32Field <|
    .cons 9 rt.uint32Field <| .cons 10 rt.stringField <| .cons 11 rt.boolField <|
    .cons 12 rt.boolField <| .nil) view rfl

structure Like where
  postId : JsString
  userId : JsString
  createdAt : JsString
  unknown : List Entry

def Like.view : View Like (JsString × JsString × JsString × Unit) where
  toFun m := ((m.postId, m.userId, m.createdAt, ()), m.unknown)
  invFun := fun ((postId, userId, createdAt, ()), unknown) =>
    { postId, userId, createdAt, unknown }
  left_inv _ := rfl
  right_inv _ := rfl

def Like.messageType (rt : BinaryRuntime ε) : MessageType ε Like :=
  .ofFields rt.toRuntime (.cons 1 rt.stringField <| .cons 2 rt.stringField <|
    .cons 3 rt.stringField <| .nil) view rfl

structure Post where
  id : JsString
  author : Option User
  title : JsString
  content : JsString
  imageUrl : JsString
  likesCount : Nat
  commentsCount : Nat
  isLikedByMe : Bool
  createdAt : JsString
  unknown : List Entry

def Post.view : View Post
    (JsString × Option User × JsString × JsString × JsString × Nat × Nat × Bool × JsString ×
      Unit) where
  toFun m := ((m.id, m.author, m.title, m.content, m.imageUrl, m.likesCount, m.commentsCount,
    m.isLikedByMe, m.createdAt, ()), m.unknown)
  invFun := fun ((id, author, title, content, imageUrl, likesCount, commentsCount, isLikedByMe,
      createdAt, ()), unknown) =>
    { id, author, title, content, imageUrl, likesCount, commentsCount, isLikedByMe, createdAt,
      unknown }
  left_inv _ := rfl
  right_inv _ := rfl

def Post.messageType (rt : BinaryRuntime ε) : MessageType ε Post :=
  .ofFields rt.toRuntime (.cons 1 rt.stringField <|
    .cons 2 (rt.messageField (User.messageType rt)) <| .cons 3 rt.stringField <|
    .cons 4 rt.stringField <| .cons 5 rt.stringField <| .cons 6 rt.uint32Field <|
    .cons 7 rt.uint32Field <| .cons 8 rt.boolField <| .cons 9 rt.stringField <| .nil) view rfl

structure CommentItem where
  id : JsString
  author : Option User
  postId : JsString
  content : JsString
  createdAt : JsString
  unknown : List Entry

def CommentItem.view : View CommentItem
    (JsString × Option User × JsString × JsString × JsString × Unit) where
  toFun m := ((m.id, m.author, m.postId, m.content, m.createdAt, ()), m.unknown)
  invFun := fun ((id, author, postId, content, createdAt, ()), unknown) =>
    { id, author, postId, content, createdAt, unknown }
  left_inv _ := rfl
  right_inv _ := rfl

def CommentItem.messageType (rt : BinaryRuntime ε) : MessageType ε CommentItem :=
  .ofFields rt.toRuntime (.cons 1 rt.stringField <|
    .cons 2 (rt.messageField (User.messageType rt)) <| .cons 3 rt.stringField <|
    .cons 4 rt.stringField <| .cons 5 rt.stringField <| .nil) view rfl

structure Notification where
  id : JsString
  type : JsString
  fromUser : Option User
  postId : JsString
  message : JsString
  isRead : Bool
  createdAt : JsString
  unknown : List Entry

def Notification.view : View Notification
    (JsString × JsString × Option User × JsString × JsString × Bool × JsString × Unit) where
  toFun m := ((m.id, m.type, m.fromUser, m.postId, m.message, m.isRead, m.createdAt, ()), m.unknown)
  invFun := fun ((id, type, fromUser, postId, message, isRead, createdAt, ()), unknown) =>
    { id, type, fromUser, postId, message, isRead, createdAt, unknown }
  left_inv _ := rfl
  right_inv _ := rfl

def Notification.messageType (rt : BinaryRuntime ε) : MessageType ε Notification :=
  .ofFields rt.toRuntime (.cons 1 rt.stringField <| .cons 2 rt.stringField <|
    .cons 3 (rt.messageField (User.messageType rt)) <| .cons 4 rt.stringField <|
    .cons 5 rt.stringField <| .cons 6 rt.boolField <| .cons 7 rt.stringField <| .nil) view rfl

structure UserList where
  users : List User
  unknown : List Entry

def UserList.view : View UserList (List User × Unit) where
  toFun m := ((m.users, ()), m.unknown)
  invFun := fun ((users, ()), unknown) =>
    { users, unknown }
  left_inv _ := rfl
  right_inv _ := rfl

def UserList.messageType (rt : BinaryRuntime ε) : MessageType ε UserList :=
  .ofFields rt.toRuntime (.cons 1 (rt.repeatedField (User.messageType rt)) <| .nil) view rfl

structure PostList where
  posts : List Post
  unknown : List Entry

def PostList.view : View PostList (List Post × Unit) where
  toFun m := ((m.posts, ()), m.unknown)
  invFun := fun ((posts, ()), unknown) =>
    { posts, unknown }
  left_inv _ := rfl
  right_inv _ := rfl

def PostList.messageType (rt : BinaryRuntime ε) : MessageType ε PostList :=
  .ofFields rt.toRuntime (.cons 1 (rt.repeatedField (Post.messageType rt)) <| .nil) view rfl

structure CommentList where
  comments : List CommentItem
  unknown : List Entry

def CommentList.view : View CommentList (List CommentItem × Unit) where
  toFun m := ((m.comments, ()), m.unknown)
  invFun := fun ((comments, ()), unknown) =>
    { comments, unknown }
  left_inv _ := rfl
  right_inv _ := rfl

def CommentList.messageType (rt : BinaryRuntime ε) : MessageType ε CommentList :=
  .ofFields rt.toRuntime (.cons 1 (rt.repeatedField (CommentItem.messageType rt)) <| .nil) view rfl

structure NotificationList where
  notifications : List Notification
  unknown : List Entry

def NotificationList.view : View NotificationList (List Notification × Unit) where
  toFun m := ((m.notifications, ()), m.unknown)
  invFun := fun ((notifications, ()), unknown) =>
    { notifications, unknown }
  left_inv _ := rfl
  right_inv _ := rfl

def NotificationList.messageType (rt : BinaryRuntime ε) : MessageType ε NotificationList :=
  .ofFields rt.toRuntime (.cons 1 (rt.repeatedField (Notification.messageType rt)) <| .nil) view rfl

structure LoginRequest where
  authorizationCode : JsString
  redirectUri : JsString
  unknown : List Entry

def LoginRequest.view : View LoginRequest (JsString × JsString × Unit) where
  toFun m := ((m.authorizationCode, m.redirectUri, ()), m.unknown)
  invFun := fun ((authorizationCode, redirectUri, ()), unknown) =>
    { authorizationCode, redirectUri, unknown }
  left_inv _ := rfl
  right_inv _ := rfl

def LoginRequest.messageType (rt : BinaryRuntime ε) : MessageType ε LoginRequest :=
  .ofFields rt.toRuntime (.cons 1 rt.stringField <| .cons 2 rt.stringField <| .nil) view rfl

structure DeleteUserRequest where
  userId : JsString
  unknown : List Entry

def DeleteUserRequest.view : View DeleteUserRequest (JsString × Unit) where
  toFun m := ((m.userId, ()), m.unknown)
  invFun := fun ((userId, ()), unknown) =>
    { userId, unknown }
  left_inv _ := rfl
  right_inv _ := rfl

def DeleteUserRequest.messageType (rt : BinaryRuntime ε) : MessageType ε DeleteUserRequest :=
  .ofFields rt.toRuntime (.cons 1 rt.stringField <| .nil) view rfl

structure RefreshAccessTokenRequest where
  refreshToken : JsString
  unknown : List Entry

def RefreshAccessTokenRequest.view : View RefreshAccessTokenRequest (JsString × Unit) where
  toFun m := ((m.refreshToken, ()), m.unknown)
  invFun := fun ((refreshToken, ()), unknown) =>
    { refreshToken, unknown }
  left_inv _ := rfl
  right_inv _ := rfl

def RefreshAccessTokenRequest.messageType (rt : BinaryRuntime ε) :
    MessageType ε RefreshAccessTokenRequest :=
  .ofFields rt.toRuntime (.cons 1 rt.stringField <| .nil) view rfl

structure GetUserByIdRequest where
  userId : JsString
  unknown : List Entry

def GetUserByIdRequest.view : View GetUserByIdRequest (JsString × Unit) where
  toFun m := ((m.userId, ()), m.unknown)
  invFun := fun ((userId, ()), unknown) =>
    { userId, unknown }
  left_inv _ := rfl
  right_inv _ := rfl

def GetUserByIdRequest.messageType (rt : BinaryRuntime ε) : MessageType ε GetUserByIdRequest :=
  .ofFields rt.toRuntime (.cons 1 rt.stringField <| .nil) view rfl

structure GetUserByHandleRequest where
  handle : JsString
  unknown : List Entry

def GetUserByHandleRequest.view : View GetUserByHandleRequest (JsString × Unit) where
  toFun m := ((m.handle, ()), m.unknown)
  invFun := fun ((handle, ()), unknown) =>
    { handle, unknown }
  left_inv _ := rfl
  right_inv _ := rfl

def GetUserByHandleRequest.messageType (rt : BinaryRuntime ε) :
    MessageType ε GetUserByHandleRequest :=
  .ofFields rt.toRuntime (.cons 1 rt.stringField <| .nil) view rfl

structure UpdateProfileRequest where
  displayName : JsString
  bio : JsString
  avatarUrl : JsString
  unknown : List Entry

def UpdateProfileRequest.view : View UpdateProfileRequest
    (JsString × JsString × JsString × Unit) where
  toFun m := ((m.displayName, m.bio, m.avatarUrl, ()), m.unknown)
  invFun := fun ((displayName, bio, avatarUrl, ()), unknown) =>
    { displayName, bio, avatarUrl, unknown }
  left_inv _ := rfl
  right_inv _ := rfl

def UpdateProfileRequest.messageType (rt : BinaryRuntime ε) : MessageType ε UpdateProfileRequest :=
  .ofFields rt.toRuntime (.cons 1 rt.stringField <| .cons 2 rt.stringField <|
    .cons 3 rt.stringField <| .nil) view rfl

structure SearchUsersRequest where
  query : JsString
  limit : Nat
  unknown : List Entry

def SearchUsersRequest.view : View SearchUsersRequest (JsString × Nat × Unit) where
  toFun m := ((m.query, m.limit, ()), m.unknown)
  invFun := fun ((query, limit, ()), unknown) =>
    { query, limit, unknown }
  left_inv _ := rfl
  right_inv _ := rfl

def SearchUsersRequest.messageType (rt : BinaryRuntime ε) : MessageType ε SearchUsersRequest :=
  .ofFields rt.toRuntime (.cons 1 rt.stringField <| .cons 2 rt.uint32Field <| .nil) view rfl

structure CreatePostRequest where
  title : JsString
  content : JsString
  imageUrl : JsString
  unknown : List Entry

def CreatePostRequest.view : View CreatePostRequest (JsString × JsString × JsString × Unit) where
  toFun m := ((m.title, m.content, m.imageUrl, ()), m.unknown)
  invFun := fun ((title, content, imageUrl, ()), unknown) =>
    { title, content, imageUrl, unknown }
  left_inv _ := rfl
  right_inv _ := rfl

def CreatePostRequest.messageType (rt : BinaryRuntime ε) : MessageType ε CreatePostRequest :=
  .ofFields rt.toRuntime (.cons 1 rt.stringField <| .cons 2 rt.stringField <|
    .cons 3 rt.stringField <| .nil) view rfl

structure GetPostRequest where
  postId : JsString
  unknown : List Entry

def GetPostRequest.view : View GetPostRequest (JsString × Unit) where
  toFun m := ((m.postId, ()), m.unknown)
  invFun := fun ((postId, ()), unknown) =>
    { postId, unknown }
  left_inv _ := rfl
  right_inv _ := rfl

def GetPostRequest.messageType (rt : BinaryRuntime ε) : MessageType ε GetPostRequest :=
  .ofFields rt.toRuntime (.cons 1 rt.stringField <| .nil) view rfl

structure DeletePostRequest where
  postId : JsString
  unknown : List Entry

def DeletePostRequest.view : View DeletePostRequest (JsString × Unit) where
  toFun m := ((m.postId, ()), m.unknown)
  invFun := fun ((postId, ()), unknown) =>
    { postId, unknown }
  left_inv _ := rfl
  right_inv _ := rfl

def DeletePostRequest.messageType (rt : BinaryRuntime ε) : MessageType ε DeletePostRequest :=
  .ofFields rt.toRuntime (.cons 1 rt.stringField <| .nil) view rfl

structure ListFeedRequest where
  page : Nat
  limit : Nat
  unknown : List Entry

def ListFeedRequest.view : View ListFeedRequest (Nat × Nat × Unit) where
  toFun m := ((m.page, m.limit, ()), m.unknown)
  invFun := fun ((page, limit, ()), unknown) =>
    { page, limit, unknown }
  left_inv _ := rfl
  right_inv _ := rfl

def ListFeedRequest.messageType (rt : BinaryRuntime ε) : MessageType ε ListFeedRequest :=
  .ofFields rt.toRuntime (.cons 1 rt.uint32Field <| .cons 2 rt.uint32Field <| .nil) view rfl

structure ListUserPostsRequest where
  userId : JsString
  page : Nat
  limit : Nat
  unknown : List Entry

def ListUserPostsRequest.view : View ListUserPostsRequest (JsString × Nat × Nat × Unit) where
  toFun m := ((m.userId, m.page, m.limit, ()), m.unknown)
  invFun := fun ((userId, page, limit, ()), unknown) =>
    { userId, page, limit, unknown }
  left_inv _ := rfl
  right_inv _ := rfl

def ListUserPostsRequest.messageType (rt : BinaryRuntime ε) : MessageType ε ListUserPostsRequest :=
  .ofFields rt.toRuntime (.cons 1 rt.stringField <| .cons 2 rt.uint32Field <|
    .cons 3 rt.uint32Field <| .nil) view rfl

structure CommentRequest where
  postId : JsString
  content : JsString
  unknown : List Entry

def CommentRequest.view : View CommentRequest (JsString × JsString × Unit) where
  toFun m := ((m.postId, m.content, ()), m.unknown)
  invFun := fun ((postId, content, ()), unknown) =>
    { postId, content, unknown }
  left_inv _ := rfl
  right_inv _ := rfl

def CommentRequest.messageType (rt : BinaryRuntime ε) : MessageType ε CommentRequest :=
  .ofFields rt.toRuntime (.cons 1 rt.stringField <| .cons 2 rt.stringField <| .nil) view rfl

structure DeleteCommentRequest where
  commentId : JsString
  unknown : List Entry

def DeleteCommentRequest.view : View DeleteCommentRequest (JsString × Unit) where
  toFun m := ((m.commentId, ()), m.unknown)
  invFun := fun ((commentId, ()), unknown) =>
    { commentId, unknown }
  left_inv _ := rfl
  right_inv _ := rfl

def DeleteCommentRequest.messageType (rt : BinaryRuntime ε) : MessageType ε DeleteCommentRequest :=
  .ofFields rt.toRuntime (.cons 1 rt.stringField <| .nil) view rfl

structure ListCommentsRequest where
  postId : JsString
  page : Nat
  limit : Nat
  unknown : List Entry

def ListCommentsRequest.view : View ListCommentsRequest (JsString × Nat × Nat × Unit) where
  toFun m := ((m.postId, m.page, m.limit, ()), m.unknown)
  invFun := fun ((postId, page, limit, ()), unknown) =>
    { postId, page, limit, unknown }
  left_inv _ := rfl
  right_inv _ := rfl

def ListCommentsRequest.messageType (rt : BinaryRuntime ε) : MessageType ε ListCommentsRequest :=
  .ofFields rt.toRuntime (.cons 1 rt.stringField <| .cons 2 rt.uint32Field <|
    .cons 3 rt.uint32Field <| .nil) view rfl

structure ToggleFollowRequest where
  userId : JsString
  unknown : List Entry

def ToggleFollowRequest.view : View ToggleFollowRequest (JsString × Unit) where
  toFun m := ((m.userId, ()), m.unknown)
  invFun := fun ((userId, ()), unknown) =>
    { userId, unknown }
  left_inv _ := rfl
  right_inv _ := rfl

def ToggleFollowRequest.messageType (rt : BinaryRuntime ε) : MessageType ε ToggleFollowRequest :=
  .ofFields rt.toRuntime (.cons 1 rt.stringField <| .nil) view rfl

structure GetFollowersRequest where
  userId : JsString
  page : Nat
  limit : Nat
  unknown : List Entry

def GetFollowersRequest.view : View GetFollowersRequest (JsString × Nat × Nat × Unit) where
  toFun m := ((m.userId, m.page, m.limit, ()), m.unknown)
  invFun := fun ((userId, page, limit, ()), unknown) =>
    { userId, page, limit, unknown }
  left_inv _ := rfl
  right_inv _ := rfl

def GetFollowersRequest.messageType (rt : BinaryRuntime ε) : MessageType ε GetFollowersRequest :=
  .ofFields rt.toRuntime (.cons 1 rt.stringField <| .cons 2 rt.uint32Field <|
    .cons 3 rt.uint32Field <| .nil) view rfl

structure GetFollowingRequest where
  userId : JsString
  page : Nat
  limit : Nat
  unknown : List Entry

def GetFollowingRequest.view : View GetFollowingRequest (JsString × Nat × Nat × Unit) where
  toFun m := ((m.userId, m.page, m.limit, ()), m.unknown)
  invFun := fun ((userId, page, limit, ()), unknown) =>
    { userId, page, limit, unknown }
  left_inv _ := rfl
  right_inv _ := rfl

def GetFollowingRequest.messageType (rt : BinaryRuntime ε) : MessageType ε GetFollowingRequest :=
  .ofFields rt.toRuntime (.cons 1 rt.stringField <| .cons 2 rt.uint32Field <|
    .cons 3 rt.uint32Field <| .nil) view rfl

structure ToggleLikeRequest where
  postId : JsString
  unknown : List Entry

def ToggleLikeRequest.view : View ToggleLikeRequest (JsString × Unit) where
  toFun m := ((m.postId, ()), m.unknown)
  invFun := fun ((postId, ()), unknown) =>
    { postId, unknown }
  left_inv _ := rfl
  right_inv _ := rfl

def ToggleLikeRequest.messageType (rt : BinaryRuntime ε) : MessageType ε ToggleLikeRequest :=
  .ofFields rt.toRuntime (.cons 1 rt.stringField <| .nil) view rfl

structure ListLikesRequest where
  postId : JsString
  pageSize : Nat
  pageToken : JsString
  unknown : List Entry

def ListLikesRequest.view : View ListLikesRequest (JsString × Nat × JsString × Unit) where
  toFun m := ((m.postId, m.pageSize, m.pageToken, ()), m.unknown)
  invFun := fun ((postId, pageSize, pageToken, ()), unknown) =>
    { postId, pageSize, pageToken, unknown }
  left_inv _ := rfl
  right_inv _ := rfl

def ListLikesRequest.messageType (rt : BinaryRuntime ε) : MessageType ε ListLikesRequest :=
  .ofFields rt.toRuntime (.cons 1 rt.stringField <| .cons 2 rt.uint32Field <|
    .cons 3 rt.stringField <| .nil) view rfl

structure ListNotificationsRequest where
  page : Nat
  limit : Nat
  unknown : List Entry

def ListNotificationsRequest.view : View ListNotificationsRequest (Nat × Nat × Unit) where
  toFun m := ((m.page, m.limit, ()), m.unknown)
  invFun := fun ((page, limit, ()), unknown) =>
    { page, limit, unknown }
  left_inv _ := rfl
  right_inv _ := rfl

def ListNotificationsRequest.messageType (rt : BinaryRuntime ε) :
    MessageType ε ListNotificationsRequest :=
  .ofFields rt.toRuntime (.cons 1 rt.uint32Field <| .cons 2 rt.uint32Field <| .nil) view rfl

structure MarkAsReadRequest where
  notificationId : JsString
  unknown : List Entry

def MarkAsReadRequest.view : View MarkAsReadRequest (JsString × Unit) where
  toFun m := ((m.notificationId, ()), m.unknown)
  invFun := fun ((notificationId, ()), unknown) =>
    { notificationId, unknown }
  left_inv _ := rfl
  right_inv _ := rfl

def MarkAsReadRequest.messageType (rt : BinaryRuntime ε) : MessageType ε MarkAsReadRequest :=
  .ofFields rt.toRuntime (.cons 1 rt.stringField <| .nil) view rfl

structure WatchRequest where
  unknown : List Entry

def WatchRequest.view : View WatchRequest (Unit) where
  toFun m := ((()), m.unknown)
  invFun := fun ((()), unknown) =>
    { unknown }
  left_inv _ := rfl
  right_inv _ := rfl

def WatchRequest.messageType (rt : BinaryRuntime ε) : MessageType ε WatchRequest :=
  .ofFields rt.toRuntime .nil view rfl

structure ListLikesResult where
  likes : List Like
  nextPageToken : JsString
  unknown : List Entry

def ListLikesResult.view : View ListLikesResult (List Like × JsString × Unit) where
  toFun m := ((m.likes, m.nextPageToken, ()), m.unknown)
  invFun := fun ((likes, nextPageToken, ()), unknown) =>
    { likes, nextPageToken, unknown }
  left_inv _ := rfl
  right_inv _ := rfl

def ListLikesResult.messageType (rt : BinaryRuntime ε) : MessageType ε ListLikesResult :=
  .ofFields rt.toRuntime (.cons 1 (rt.repeatedField (Like.messageType rt)) <|
    .cons 2 rt.stringField <| .nil) view rfl

structure ToggleFollowResult where
  isFollowing : Bool
  updatedFollowersCount : Nat
  unknown : List Entry

def ToggleFollowResult.view : View ToggleFollowResult (Bool × Nat × Unit) where
  toFun m := ((m.isFollowing, m.updatedFollowersCount, ()), m.unknown)
  invFun := fun ((isFollowing, updatedFollowersCount, ()), unknown) =>
    { isFollowing, updatedFollowersCount, unknown }
  left_inv _ := rfl
  right_inv _ := rfl

def ToggleFollowResult.messageType (rt : BinaryRuntime ε) : MessageType ε ToggleFollowResult :=
  .ofFields rt.toRuntime (.cons 1 rt.boolField <| .cons 2 rt.uint32Field <| .nil) view rfl

structure DeleteUserResult where
  success : Bool
  deletedUserId : JsString
  unknown : List Entry

def DeleteUserResult.view : View DeleteUserResult (Bool × JsString × Unit) where
  toFun m := ((m.success, m.deletedUserId, ()), m.unknown)
  invFun := fun ((success, deletedUserId, ()), unknown) =>
    { success, deletedUserId, unknown }
  left_inv _ := rfl
  right_inv _ := rfl

def DeleteUserResult.messageType (rt : BinaryRuntime ε) : MessageType ε DeleteUserResult :=
  .ofFields rt.toRuntime (.cons 1 rt.boolField <| .cons 2 rt.stringField <| .nil) view rfl

structure ToggleLikeResult where
  isLiked : Bool
  updatedLikesCount : Nat
  unknown : List Entry

def ToggleLikeResult.view : View ToggleLikeResult (Bool × Nat × Unit) where
  toFun m := ((m.isLiked, m.updatedLikesCount, ()), m.unknown)
  invFun := fun ((isLiked, updatedLikesCount, ()), unknown) =>
    { isLiked, updatedLikesCount, unknown }
  left_inv _ := rfl
  right_inv _ := rfl

def ToggleLikeResult.messageType (rt : BinaryRuntime ε) : MessageType ε ToggleLikeResult :=
  .ofFields rt.toRuntime (.cons 1 rt.boolField <| .cons 2 rt.uint32Field <| .nil) view rfl

structure LoginResult where
  accessToken : JsString
  refreshToken : JsString
  expiresIn : Nat
  user : Option User
  idToken : JsString
  unknown : List Entry

def LoginResult.view : View LoginResult
    (JsString × JsString × Nat × Option User × JsString × Unit) where
  toFun m := ((m.accessToken, m.refreshToken, m.expiresIn, m.user, m.idToken, ()), m.unknown)
  invFun := fun ((accessToken, refreshToken, expiresIn, user, idToken, ()), unknown) =>
    { accessToken, refreshToken, expiresIn, user, idToken, unknown }
  left_inv _ := rfl
  right_inv _ := rfl

def LoginResult.messageType (rt : BinaryRuntime ε) : MessageType ε LoginResult :=
  .ofFields rt.toRuntime (.cons 1 rt.stringField <| .cons 2 rt.stringField <|
    .cons 3 rt.uint32Field <| .cons 4 (rt.messageField (User.messageType rt)) <|
    .cons 5 rt.stringField <| .nil) view rfl

structure FollowResult where
  userId : JsString
  followersCount : Nat
  unknown : List Entry

def FollowResult.view : View FollowResult (JsString × Nat × Unit) where
  toFun m := ((m.userId, m.followersCount, ()), m.unknown)
  invFun := fun ((userId, followersCount, ()), unknown) =>
    { userId, followersCount, unknown }
  left_inv _ := rfl
  right_inv _ := rfl

def FollowResult.messageType (rt : BinaryRuntime ε) : MessageType ε FollowResult :=
  .ofFields rt.toRuntime (.cons 1 rt.stringField <| .cons 2 rt.uint32Field <| .nil) view rfl

structure Empty where
  unknown : List Entry

def Empty.view : View Empty (Unit) where
  toFun m := ((()), m.unknown)
  invFun := fun ((()), unknown) =>
    { unknown }
  left_inv _ := rfl
  right_inv _ := rfl

def Empty.messageType (rt : BinaryRuntime ε) : MessageType ε Empty :=
  .ofFields rt.toRuntime .nil view rfl

/-- The message types of the file. -/
inductive MessageName where
  | user | like | post | commentItem | notification | userList | postList | commentList
  | notificationList | loginRequest | deleteUserRequest | refreshAccessTokenRequest
  | getUserByIdRequest | getUserByHandleRequest | updateProfileRequest | searchUsersRequest
  | createPostRequest | getPostRequest | deletePostRequest | listFeedRequest | listUserPostsRequest
  | commentRequest | deleteCommentRequest | listCommentsRequest | toggleFollowRequest
  | getFollowersRequest | getFollowingRequest | toggleLikeRequest | listLikesRequest
  | listNotificationsRequest | markAsReadRequest | watchRequest | listLikesResult
  | toggleFollowResult | deleteUserResult | toggleLikeResult | loginResult | followResult | empty

namespace MessageName

def Message : MessageName → Type
  | user => User
  | like => Like
  | post => Post
  | commentItem => CommentItem
  | notification => Notification
  | userList => UserList
  | postList => PostList
  | commentList => CommentList
  | notificationList => NotificationList
  | loginRequest => LoginRequest
  | deleteUserRequest => DeleteUserRequest
  | refreshAccessTokenRequest => RefreshAccessTokenRequest
  | getUserByIdRequest => GetUserByIdRequest
  | getUserByHandleRequest => GetUserByHandleRequest
  | updateProfileRequest => UpdateProfileRequest
  | searchUsersRequest => SearchUsersRequest
  | createPostRequest => CreatePostRequest
  | getPostRequest => GetPostRequest
  | deletePostRequest => DeletePostRequest
  | listFeedRequest => ListFeedRequest
  | listUserPostsRequest => ListUserPostsRequest
  | commentRequest => CommentRequest
  | deleteCommentRequest => DeleteCommentRequest
  | listCommentsRequest => ListCommentsRequest
  | toggleFollowRequest => ToggleFollowRequest
  | getFollowersRequest => GetFollowersRequest
  | getFollowingRequest => GetFollowingRequest
  | toggleLikeRequest => ToggleLikeRequest
  | listLikesRequest => ListLikesRequest
  | listNotificationsRequest => ListNotificationsRequest
  | markAsReadRequest => MarkAsReadRequest
  | watchRequest => WatchRequest
  | listLikesResult => ListLikesResult
  | toggleFollowResult => ToggleFollowResult
  | deleteUserResult => DeleteUserResult
  | toggleLikeResult => ToggleLikeResult
  | loginResult => LoginResult
  | followResult => FollowResult
  | empty => Empty

def messageType (rt : BinaryRuntime ε) : (name : MessageName) → MessageType ε name.Message
  | user => User.messageType rt
  | like => Like.messageType rt
  | post => Post.messageType rt
  | commentItem => CommentItem.messageType rt
  | notification => Notification.messageType rt
  | userList => UserList.messageType rt
  | postList => PostList.messageType rt
  | commentList => CommentList.messageType rt
  | notificationList => NotificationList.messageType rt
  | loginRequest => LoginRequest.messageType rt
  | deleteUserRequest => DeleteUserRequest.messageType rt
  | refreshAccessTokenRequest => RefreshAccessTokenRequest.messageType rt
  | getUserByIdRequest => GetUserByIdRequest.messageType rt
  | getUserByHandleRequest => GetUserByHandleRequest.messageType rt
  | updateProfileRequest => UpdateProfileRequest.messageType rt
  | searchUsersRequest => SearchUsersRequest.messageType rt
  | createPostRequest => CreatePostRequest.messageType rt
  | getPostRequest => GetPostRequest.messageType rt
  | deletePostRequest => DeletePostRequest.messageType rt
  | listFeedRequest => ListFeedRequest.messageType rt
  | listUserPostsRequest => ListUserPostsRequest.messageType rt
  | commentRequest => CommentRequest.messageType rt
  | deleteCommentRequest => DeleteCommentRequest.messageType rt
  | listCommentsRequest => ListCommentsRequest.messageType rt
  | toggleFollowRequest => ToggleFollowRequest.messageType rt
  | getFollowersRequest => GetFollowersRequest.messageType rt
  | getFollowingRequest => GetFollowingRequest.messageType rt
  | toggleLikeRequest => ToggleLikeRequest.messageType rt
  | listLikesRequest => ListLikesRequest.messageType rt
  | listNotificationsRequest => ListNotificationsRequest.messageType rt
  | markAsReadRequest => MarkAsReadRequest.messageType rt
  | watchRequest => WatchRequest.messageType rt
  | listLikesResult => ListLikesResult.messageType rt
  | toggleFollowResult => ToggleFollowResult.messageType rt
  | deleteUserResult => DeleteUserResult.messageType rt
  | toggleLikeResult => ToggleLikeResult.messageType rt
  | loginResult => LoginResult.messageType rt
  | followResult => FollowResult.messageType rt
  | empty => Empty.messageType rt

end MessageName

end Crown.Social
