import StudyDB.Message.RefMessage
import StudyDB.Message.PartialSubInfo
import StudyDB.Message.AtUser
import StudyDB.People.Worker
import StudyDB.WebSite.Search
import StudyDB.WebSite.Paging
import StudyDB.WebSite.Ranks
import StudyDB.KeywordSearch
import StudyDB.ViewController
import StudyDB.ImageCellD
import StudyDB.RecordDuration
import StudyDB.WCDB.Transactions
import StudyDB.WCDB.Insert
import StudyDB.WebSite.Patterns
import StudyDB.SafeCollection.PThreadSafeArrayThreads
import StudyDB.SafeCollection.PThreadSafeDictionaryThreads
import StudyDB.WebSite.Statements
import StudyDB.Locks.Monitor
import StudyDB.WCDB.HandleCounter
import StudyDB.WCDB.SharedLock
