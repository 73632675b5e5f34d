import SmartLock.WebApi.Authentication
import SmartLock.WebApi.LoginToDoor
import SmartLock.WebApi.HistoryPages
import SmartLock.Data.DbDataSeeder
import SmartLock.Cluster.Authenticity
import SmartLock.Cluster.AuditTrail
import SmartLock.Cluster.Lifecycle
import SmartLock.Cluster.Conservation
import SmartLock.Cluster.Freshness
import SmartLock.Cluster.OneActor
import SmartLock.Cluster.Isolation
import SmartLock.Cluster.Admission
import SmartLock.Cluster.Notification
import SmartLock.Cluster.Deletions
import SmartLock.Cluster.OneName
import SmartLock.WebApi.PublishPayload
import SmartLock.Cluster.Backlog
import SmartLock.Cluster.ServedHistory
import SmartLock.Cluster.AtomicSilo
import SmartLock.WebApi.TokenLifetime
import SmartLock.Cluster.DeletedUser
import SmartLock.Cluster.Policy
import SmartLock.WebApi.UsersController
import SmartLock.Cluster.Api
import SmartLock.Cluster.Hosting
import SmartLock.Cluster.Restarts
