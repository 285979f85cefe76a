import Untangled.KeyedTable
import Untangled.ReadCommitted
import Untangled.ReadCommittedLocking
import Untangled.ReadCommittedSerial
import Untangled.TokenLedger
import Untangled.AuthTables
import Untangled.AuthStatements
import Untangled.AuthWrites
import Untangled.SessionTimes
import Untangled.SystemConfig
import Untangled.SessionRepository
import Untangled.ChangePassword
import Untangled.Login
import Untangled.AuthSystem
import Untangled.AuthSerial
import Untangled.SessionStages
import Untangled.SessionRefinement
import Untangled.SessionSerial
import Untangled.TokenSingleUse
import Untangled.MustChangeGate
import Untangled.SessionCleanup
import Untangled.ChangePasswordFrame
import Untangled.RefreshPipeline
import Untangled.SessionReplay
import Untangled.SessionCap
import Untangled.RefreshCookies
import Untangled.LogOutApproach
import Untangled.PasswordEviction
import Untangled.SessionIntegrity
import Untangled.SessionTeardown
import Untangled.TeardownRuns
import Untangled.RecursiveQuery
import Untangled.RoleGraph
import Untangled.RoleEdges
import Untangled.JsStrings
import Untangled.RequestProgram
import Untangled.LoginPipeline
import Untangled.HashSlots
import Untangled.LoginDenial
import Untangled.LoginCounts
import Untangled.RateLimitContext
import Untangled.RateLimitCalls
import Untangled.MemoryRateLimit
import Untangled.LockoutStarts
import Untangled.LockoutMachine
import Untangled.PurgeInvisible
import Untangled.RedisServer
import Untangled.RedisTransactions
import Untangled.RedisRateLimit
import Untangled.RedisContexts
import Untangled.RedisLinear
import Untangled.RedisSequential
import Untangled.LimitersAgree
import Untangled.VersionedCache
import Untangled.ReadCommittedTraces
import Untangled.AuthzTables
import Untangled.AuthzPrograms
import Untangled.AuthzVersion
import Untangled.AuthzDiscipline
import Untangled.AuthzCache
import Untangled.SchemaIr
import Untangled.TopologicalOrder
import Untangled.SchemaPlan
import Untangled.SchemaDiff
import Untangled.RowEdits
import Untangled.SchemaCatalog
import Untangled.SchemaDiffPhases
import Untangled.SchemaDiffTarget
import Untangled.SchemaWellFormed
import Untangled.SchemaDiffOrder
import Untangled.SchemaDiffExecution
import Untangled.SchemaDiffCorrect
import Untangled.SortedJson
import Untangled.SchemaSerialize
import Untangled.SchemaDiffEmpty
import Untangled.PythonText
import Untangled.ClassDefinitions
import Untangled.DefinitionSets
import Untangled.DesiredSchema
import Untangled.GeneratedNames
import Untangled.CaseMapping
import Untangled.ModelNames
import Untangled.Records
import Untangled.RecordHandlers
import Untangled.RecordUpdates
import Untangled.SettingsCache
import Untangled.SystemConfigCoherence
import Untangled.RbacSeed
import Untangled.RbacSeedPhases
import Untangled.RbacSeedJoins
import Untangled.RbacSeedTwice
import Untangled.RbacSeedSerial
import Untangled.RbacSeedCorrect
import Untangled.LikePatterns
import Untangled.SearchPatterns
import Untangled.SettingsAgree
import Untangled.UuidTexts
import Untangled.JsonValues
import Untangled.AccessTokens
import Untangled.UrlResolution
import Untangled.NextPath
import Untangled.SqlExpressions
import Untangled.SqlLogic
import Untangled.SearchPredicates
import Untangled.SearchGrammar
import Untangled.SearchCompiler
import Untangled.SearchOverflow
import Untangled.SqlValues
import Untangled.SearchMeaning
import Untangled.SqlSelect
import Untangled.LoadedClasses
import Untangled.FkEnrichment
import Untangled.SearchExecution
import Untangled.SearchRows
import Untangled.SearchItems
import Untangled.SearchPages
import Untangled.SearchIdOnly
import Untangled.CollapsedText
import Untangled.SqlTokens
import Untangled.SqueezedTokens
import Untangled.CheckExpressions
import Untangled.Pagination
import Untangled.DetailEditor
import Untangled.QuickFilters
import Untangled.FilterEditor
import Untangled.FilterEditing
import Untangled.FilterNesting
import Untangled.FilterRoundTrip
import Untangled.SchemaIdentity
import Untangled.PaddedNumerals
import Untangled.CivilCalendar
import Untangled.JsDates
import Untangled.LocalDatetimes
import Untangled.LoadedNames
import Untangled.FriendlyIds
import Untangled.SequenceStarts
import Untangled.JsonTokens
import Untangled.JsonTrees
import Untangled.CsrfField
import Untangled.CsrfRewrite
import Untangled.TableOrder
import Untangled.BigEndian
import Untangled.UuidV7
import Untangled.Base64
import Untangled.RefreshSecret
import Untangled.TimeEntry
import Untangled.ColumnLayout
import Untangled.WholeSeconds
import Untangled.MemorySessions
import Untangled.TransactionPrograms
import Untangled.Database
import Untangled.SchemaIntrospection
import Untangled.Migrate
import Untangled.KeptData
import Untangled.MigrateKeepsData
import Untangled.CookieJar
import Untangled.SessionCookies
import Untangled.RefreshFetch
import Untangled.BrowserTabs
import Untangled.Forwarded
import Untangled.RequestRules
import Untangled.AuthHttp
import Untangled.AuthGate
import Untangled.ApiGate
import Untangled.IssuedTokens
