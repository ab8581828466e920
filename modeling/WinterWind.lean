import WinterWind.Basic
import WinterWind.Library.Runs
import WinterWind.Library.Interaction
import WinterWind.Library.Fifo
import WinterWind.Library.Sextets
import WinterWind.Library.Percent
import WinterWind.Library.Decimal
import WinterWind.Library.SortedEntries
import WinterWind.Library.Updates
import WinterWind.Library.SqlTokens
import WinterWind.Library.Lines
import WinterWind.Library.Loops
import WinterWind.Library.Words
import WinterWind.Library.Erasure
import WinterWind.Library.Trimming
import WinterWind.Library.Hexadecimal
import WinterWind.Library.BitGroups
import WinterWind.Library.CheckedInt64
import WinterWind.Library.Simulation
import WinterWind.Library.Transactions
import WinterWind.Utils.StringUtils
import WinterWind.Utils.Numerals
import WinterWind.Utils.Base64
import WinterWind.Utils.Json
import WinterWind.Utils.JsonTree
import WinterWind.Utils.JsonWebTokens
import WinterWind.Utils.JwtVerification
import WinterWind.Utils.JwtRoundTrip
import WinterWind.Utils.JwtGeneration
import WinterWind.Utils.JwtStatus
import WinterWind.Utils.ThreadPool
import WinterWind.Utils.WorkQueueHistory
import WinterWind.Utils.Threads
import WinterWind.Utils.ThreadHandle
import WinterWind.Utils.WorkQueueConstruction
import WinterWind.Utils.XmlParser
import WinterWind.Utils.Console
import WinterWind.Utils.ConsoleCompletion
import WinterWind.Utils.Words
import WinterWind.Utils.Trim
import WinterWind.Utils.SplitJoin
import WinterWind.Utils.Hex
import WinterWind.Utils.Base64Reference
import WinterWind.Lua.LuaState
import WinterWind.Lua.LuaHelper
import WinterWind.Lua.TableLoop
import WinterWind.Lua.LuaImage
import WinterWind.Lua.JsonRoundTrip
import WinterWind.Lua.NullPlaceholder
import WinterWind.Lua.TraversalOrder
import WinterWind.Lua.StackUse
import WinterWind.Lua.ScriptJson
import WinterWind.Http.HttpServer
import WinterWind.Http.RequestSession
import WinterWind.Http.LiveSessions
import WinterWind.Http.FormData
import WinterWind.Http.Dispatch
import WinterWind.Http.HttpClient
import WinterWind.Http.Transfers
import WinterWind.Http.StagedState
import WinterWind.Http.QueryString
import WinterWind.Http.OAuthClient
import WinterWind.Http.OAuthHeader
import WinterWind.Http.JsonExchange
import WinterWind.Http.OAuthProvider
import WinterWind.Databases.MySqlClient
import WinterWind.Databases.PostgreSqlClient
import WinterWind.Databases.CheckConnection
import WinterWind.Databases.PostgreSqlResult
import WinterWind.Databases.TableDefinition
import WinterWind.Databases.SchemaNames
import WinterWind.Databases.EscapeBuffer
import WinterWind.Databases.MySqlResults
import WinterWind.Databases.PostgreSqlTransactions
import WinterWind.Redis.RedisClient
import WinterWind.Redis.Connection
import WinterWind.Redis.ConcurrentHset
import WinterWind.Redis.CircuitBreaker
import WinterWind.Redis.ErrorReplies
import WinterWind.Redis.SetGet
import WinterWind.Redis.Database
import WinterWind.Extras.RatpClient
import WinterWind.Extras.GitlabApiClient
import WinterWind.Extras.GitlabGetters
import WinterWind.Extras.GitlabRequests
import WinterWind.Extras.GitlabProjects
import WinterWind.Extras.ElasticsearchClient
import WinterWind.Extras.ElasticsearchIndex
import WinterWind.Extras.NodeDiscovery
import WinterWind.Extras.BulkQueue
import WinterWind.Extras.BulkBody
import WinterWind.Extras.DocumentStore
import WinterWind.Extras.OpenWeatherMapClient
import WinterWind.Extras.SlackClient
import WinterWind.Extras.SlackThread
import WinterWind.Extras.TwitterClient
import WinterWind.Amqp.Channel
import WinterWind.Amqp.Message
import WinterWind.Amqp.Connection
import WinterWind.Amqp.ChannelLimit
import WinterWind.Amqp.ChannelClosure
import WinterWind.Amqp.Handles
import WinterWind.Amqp.Lifetimes
import WinterWind.Amqp.Delivery
import WinterWind.Amqp.InOutExchange
import WinterWind.Amqp.InOutRecord
import WinterWind.Amqp.InOutReady
import WinterWind.Amqp.InvalidChannel
import WinterWind.Amqp.Consuming
import WinterWind.Amqp.Acknowledgements
import WinterWind.Utils.Timeouts
