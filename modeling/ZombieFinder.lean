import ZombieFinder.Basic
import ZombieFinder.Handles
import ZombieFinder.HeapMem
import ZombieFinder.AllHandlesSystemwide
import ZombieFinder.ZombieHandles
import ZombieFinder.Attribution
import ZombieFinder.Comparator
import ZombieFinder.ZombieOwners
import ZombieFinder.Report
import ZombieFinder.FullThreadReport
import ZombieFinder.ServiceLookup
import ZombieFinder.Wmain
