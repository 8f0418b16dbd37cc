import SdDatabase.Lib.Device
import SdDatabase.Layout
import SdDatabase.Lib.Codec
import SdDatabase.Sector
import SdDatabase.Records
import SdDatabase.FreeListStack
import SdDatabase.Journal
import SdDatabase.Contact
import SdDatabase.Message
import SdDatabase.HashTable
import SdDatabase.ChatOrder
import SdDatabase.SortedArray
import SdDatabase.History
import SdDatabase.Superheader
import SdDatabase.Database
import SdDatabase.Recovery
import SdDatabase.Transaction
import SdDatabase.Lib.OpenAddressing
import SdDatabase.View
import SdDatabase.Crash
import SdDatabase.ContactStore
import SdDatabase.MessageStore
import SdDatabase.Chat
import SdDatabase.HistoryStore
import SdDatabase.TableStore
import SdDatabase.NameIndex
import SdDatabase.Chains
import SdDatabase.Mounted
import SdDatabase.Model
import SdDatabase.Reading
import SdDatabase.Recency
import SdDatabase.ContactCalls
import SdDatabase.Effects
import SdDatabase.ChatCalls
import SdDatabase.Removal
import SdDatabase.MessageCalls
import SdDatabase.MessageAdd
import SdDatabase.Format
import SdDatabase.Run
import SdDatabase.Rebuild
import SdDatabase.Remount
import SdDatabase.Mountable
import SdDatabase.Reboot
import SdDatabase.Represented
import SdDatabase.CleanRemount
import SdDatabase.Interrupted
import SdDatabase.MessageCut
import SdDatabase.Filling
import SdDatabase.Exhaustion
import SdDatabase.TornWrite
import SdDatabase.Lib.SectorRing
import SdDatabase.RingContents
import SdDatabase.RingAdds
import SdDatabase.HistoryRuns
import SdDatabase.HistoryWindow
import SdDatabase.HistoryCuts
import SdDatabase.BitmapFaults
import SdDatabase.ChatWindow
import SdDatabase.ChatBounds
import SdDatabase.ChatRemovals
import SdDatabase.MessageRebuild
import SdDatabase.Lib.LostBlocks
import SdDatabase.PhoneTable
import SdDatabase.ContactRecords
import SdDatabase.ContactRebuild
import SdDatabase.TableLookup
import SdDatabase.Lib.Crc
import SdDatabase.SectorDamage
import SdDatabase.SuperheaderDamage
import SdDatabase.BitmapScan
import SdDatabase.Lib.Cursor
import SdDatabase.TableListing
import SdDatabase.IndexOperations
import SdDatabase.ChatOrderRebuild
import SdDatabase.HashCleanup
import SdDatabase.Lib.RelatedRuns
import SdDatabase.DamagedLookups
import SdDatabase.SectorWalk
import SdDatabase.StorageOrder
import SdDatabase.TaskRuns
import SdDatabase.HistoryFaults
import SdDatabase.FreeListRuns
import SdDatabase.ProbeSequence
import SdDatabase.JournalRuns
import SdDatabase.FormatCuts
import SdDatabase.EmptyMount
import SdDatabase.ContactFaults
import SdDatabase.Lib.ReadFaults
import SdDatabase.Lib.DoubtfulSearch
import SdDatabase.BlindLookup
import SdDatabase.BlindContacts
import SdDatabase.BlindMessages
import SdDatabase.BlindIndexes
import SdDatabase.BlindMount
import SdDatabase.BlindRebuild
import SdDatabase.CutRuns
import SdDatabase.Durability
import SdDatabase.BlindReadings
import SdDatabase.Lib.Unwinding
import SdDatabase.Separation
import SdDatabase.SharedChat
import SdDatabase.PowerCycles
import SdDatabase.HalfRemoved
import SdDatabase.ArrayIndex
import SdDatabase.AvlIndex
import SdDatabase.AvlRebuild
import SdDatabase.AvlRuns
import SdDatabase.NameListing
import SdDatabase.FewCalls
