import Crown.Lib.Text
import Crown.Lib.Url
import Crown.Lib.Base64
import Crown.Lib.Base64Encoding
import Crown.Lib.Substring
import Crown.Lib.Boundary
import Crown.Lib.Utf16
import Crown.Lib.Transition
import Crown.Lib.Program
import Crown.Lib.SlidingWindow
import Crown.Lib.RowStore
import Crown.Lib.InFlight
import Crown.Lib.Paging
import Crown.Lib.Toggling
import Crown.Lib.Service
import Crown.Lib.Gluing
import Crown.Lib.Splicing
import Crown.Lib.Rejection
import Crown.Lib.Utf8
import Crown.Lib.JsonGrammar
import Crown.QueryBuilder
import Crown.QueryReading
import Crown.Json
import Crown.JwtValidator
import Crown.JwtAcceptance
import Crown.JwtExceptions
import Crown.AuthMiddle
import Crown.CallerIdentity
import Crown.Sanitize
import Crown.HtmlSoundness
import Crown.Cache
import Crown.Backend
import Crown.Server
import Crown.Ratelimit
import Crown.RequestWindows
import Crown.Pipeline
import Crown.RefusedCalls
import Crown.ToggleLike
import Crown.LikeCounter
import Crown.CryptBaby
import Crown.HttpServer
import Crown.Tables
import Crown.Site
import Crown.MediaRoundTrip
import Crown.MediaDeletion
import Crown.ListingKeys
import Crown.ViewedPosts
import Crown.ViewerAnswers
import Crown.WorkerPool
import Crown.ClientSanitize
import Crown.PostLimits
import Crown.PostStore
import Crown.FeedPaging
import Crown.LikeSync
import Crown.AuthSession
import Crown.LogoutFinal
import Crown.UserHandles
import Crown.DeletedPosts
import Crown.AuthorPosts
import Crown.FeedEntries
import Crown.ProfilePages
import Crown.PostCounts
import Crown.PageWindows
import Crown.ShownCounts
import Crown.UserEntries
import Crown.DecodedUrls
import Crown.PeerLimits
import Crown.SingleFlight
import Crown.SignedIn
import Crown.PageWalks
import Crown.LikeToggles
import Crown.CreationReports
import Crown.MediaFormats
import Crown.PostViewers
import Crown.Base64Decoding
import Crown.TokenDecoding
import Crown.TokenExpiry
import Crown.CookieLookup
import Crown.UniquePosts
import Crown.ProfileLoads
import Crown.StrippedHtml
import Crown.SchemeFilters
import Crown.NestedEscapes
import Crown.Lib.WellFormed
import Crown.TextRepair
import Crown.UriComponents
import Crown.BrowserCookies
import Crown.UnwrappedText
import Crown.InsertedRows
import Crown.CachedReads
import Crown.QueryChains
import Crown.TableConditions
import Crown.Console
import Crown.Dotenv
import Crown.TokenReplies
import Crown.RepeatedUpserts
import Crown.RestoredPosts
import Crown.CountRaces
import Crown.ImageCdn
import Crown.CanceledUploads
import Crown.FileUploads
import Crown.SecIds
import Crown.CacheKeys
import Crown.Lib.JsonReader
import Crown.Lib.JsonAcceptance
import Crown.JsonStrings
import Crown.JsonDump
import Crown.CdnAnswers
import Crown.JsonLexer
import Crown.JsonParser
import Crown.JsonReadings
import Crown.Ownership
import Crown.PastAnswers
import Crown.PipeLocks
import Crown.ServerEnd
import Crown.MessageRoundTrip
